import Mathlib.Logic.Equiv.Basic
import Kitaza.KeyedTable

/-!
# Tables up to the keys of some rows

Keys that were drawn at random carry no meaning: two tables are the same up to
such keys when one is the other with its drawn keys renamed. Adding the same
rows under any drawn keys, in any order, keeps them the same.
-/

namespace Kitaza.RenamedTable

open KeyedTable

variable {κ ρ : Type*}

/-- The second table is the first with keys renamed, none of them fixed. -/
def Renamed (fixed : κ → Prop) (t t' : Table κ ρ) : Prop :=
  ∃ σ : Equiv.Perm κ, (∀ k, fixed k → σ k = k) ∧ ∀ k, t'.find? (σ k) = t.find? k

namespace Renamed

variable {fixed : κ → Prop} {t t' t'' : Table κ ρ}

theorem refl (fixed : κ → Prop) (t : Table κ ρ) : Renamed fixed t t :=
  ⟨Equiv.refl κ, fun _ _ => rfl, fun _ => rfl⟩

theorem symm (h : Renamed fixed t t') : Renamed fixed t' t := by
  obtain ⟨σ, hfixed, hrows⟩ := h
  refine ⟨σ.symm, fun k hk => ?_, fun k => ?_⟩
  · rw [Equiv.symm_apply_eq, hfixed k hk]
  · rw [← hrows, Equiv.apply_symm_apply]

theorem trans (h : Renamed fixed t t') (h' : Renamed fixed t' t'') : Renamed fixed t t'' := by
  obtain ⟨σ, hfixed, hrows⟩ := h
  obtain ⟨τ, hfixed', hrows'⟩ := h'
  refine ⟨σ.trans τ, fun k hk => ?_, fun k => ?_⟩
  · rw [Equiv.trans_apply, hfixed k hk, hfixed' k hk]
  · rw [Equiv.trans_apply, hrows', hrows]

/-- A fixed key has the same row in both. -/
theorem find?_eq (h : Renamed fixed t t') {k : κ} (hk : fixed k) : t'.find? k = t.find? k := by
  obtain ⟨σ, hfixed, hrows⟩ := h
  rw [← hrows k, hfixed k hk]

theorem mapRows (h : Renamed fixed t t') (f : ρ → ρ) :
    Renamed fixed (t.mapRows fun _ => f) (t'.mapRows fun _ => f) := by
  obtain ⟨σ, hfixed, hrows⟩ := h
  refine ⟨σ, hfixed, fun k => ?_⟩
  rw [Table.find?_mapRows, Table.find?_mapRows, hrows]

variable [DecidableEq κ]

/-- The same row under a key that is fixed. -/
theorem put (h : Renamed fixed t t') {k : κ} (hk : fixed k) (r : ρ) :
    Renamed fixed (t.put k r) (t'.put k r) := by
  obtain ⟨σ, hfixed, hrows⟩ := h
  refine ⟨σ, hfixed, fun j => ?_⟩
  rw [Table.find?_put, Table.find?_put, hrows]
  have hiff : σ j = k ↔ j = k := by
    constructor
    · intro he
      rw [← hfixed k hk] at he
      exact σ.injective he
    · rintro rfl
      exact hfixed j hk
  simp only [hiff]

/-- The same row under any new keys. -/
theorem put_new (h : Renamed fixed t t') {k k' : κ} (hk : ¬ fixed k) (hk' : ¬ fixed k')
    (hnew : t.find? k = none) (hnew' : t'.find? k' = none) (r : ρ) :
    Renamed fixed (t.put k r) (t'.put k' r) := by
  obtain ⟨σ, hfixed, hrows⟩ := h
  -- `k` goes to `k'`, and what went there goes where `k` went; neither had a row
  have hfree : t.find? (σ.symm k') = none := by
    rw [← hrows, Equiv.apply_symm_apply, hnew']
  refine ⟨(Equiv.swap k (σ.symm k')).trans σ, fun j hj => ?_, fun j => ?_⟩
  · have hjk : j ≠ k := fun he => hk (he ▸ hj)
    have hjk' : j ≠ σ.symm k' := by
      intro he
      have hmoved : σ j = k' := by rw [he, Equiv.apply_symm_apply]
      exact hk' (hmoved ▸ (hfixed j hj).symm ▸ hj)
    rw [Equiv.trans_apply, Equiv.swap_apply_of_ne_of_ne hjk hjk', hfixed j hj]
  · rw [Equiv.trans_apply]
    by_cases hjk : j = k
    · rw [hjk, Equiv.swap_apply_left, Equiv.apply_symm_apply, Table.find?_put_self,
        Table.find?_put_self]
    · rw [Table.find?_put_ne t r hjk]
      by_cases hjk' : j = σ.symm k'
      · have hgone : k ≠ σ.symm k' := fun he => hjk (hjk'.trans he.symm)
        have hmoved : σ k ≠ k' := fun he => hgone (by rw [← he, Equiv.symm_apply_apply])
        rw [hjk', Equiv.swap_apply_right, Table.find?_put_ne t' r hmoved, hrows, hnew, hfree]
      · have hmoved : σ j ≠ k' := fun he => hjk' (by rw [← he, Equiv.symm_apply_apply])
        rw [Equiv.swap_apply_of_ne_of_ne hjk hjk', Table.find?_put_ne t' r hmoved, hrows]

end Renamed

/-- The second table is the first with some rows more, each under a new key. -/
inductive Grown [DecidableEq κ] (drawn : κ → Prop) : Table κ ρ → List ρ → Table κ ρ → Prop
  | done (t : Table κ ρ) : Grown drawn t [] t
  | put {t t' : Table κ ρ} {k : κ} {r : ρ} {rows : List ρ} (hnew : t.find? k = none)
      (hdrawn : drawn k) (h : Grown drawn (t.put k r) rows t') : Grown drawn t (r :: rows) t'

namespace Grown

variable [DecidableEq κ] {drawn : κ → Prop} {t t' t'' : Table κ ρ} {rows rows' : List ρ}

theorem append (h : Grown drawn t rows t') (h' : Grown drawn t' rows' t'') :
    Grown drawn t (rows ++ rows') t'' := by
  induction h with
  | done t => exact h'
  | put hnew hdrawn _ ih => exact put hnew hdrawn (ih h')

/-- The rows can be added in any order. -/
theorem perm (h : Grown drawn t rows t') (hp : rows.Perm rows') : Grown drawn t rows' t' := by
  induction hp generalizing t with
  | nil => exact h
  | cons r _ ih =>
    cases h with
    | put hnew hdrawn h => exact put hnew hdrawn (ih h)
  | swap r r' rows =>
    cases h with
    | @put _ _ k' _ _ hnew' hdrawn' h =>
      cases h with
      | @put _ _ k _ _ hnew hdrawn h =>
        have hne : k ≠ k' := by
          rintro rfl
          rw [Table.find?_put_self] at hnew
          cases hnew
        rw [Table.find?_put_ne _ _ hne] at hnew
        refine put hnew hdrawn (put ?_ hdrawn' ?_)
        · rw [Table.find?_put_ne _ _ hne.symm]
          exact hnew'
        · rwa [Table.put_comm _ _ _ hne]
  | trans _ _ ih ih' => exact ih' (ih h)

theorem mapRows (h : Grown drawn t rows t') (f : ρ → ρ) :
    Grown drawn (t.mapRows fun _ => f) (rows.map f) (t'.mapRows fun _ => f) := by
  induction h with
  | done t => exact done _
  | put hnew hdrawn _ ih =>
    rw [Table.mapRows_put] at ih
    refine put ?_ hdrawn ih
    rw [Table.find?_mapRows, hnew]
    rfl

/-- Keys that are taken are not drawn. -/
theorem fresh (h : Grown drawn t rows t') {taken : κ → Prop}
    (htaken : ∀ k, taken k → (t.find? k).isSome) :
    Grown (fun k => drawn k ∧ ¬ taken k) t rows t' := by
  induction h with
  | done t => exact done t
  | @put t t' k r rows hnew hdrawn _ ih =>
    refine put hnew ⟨hdrawn, fun hk => ?_⟩ (ih fun j hj => ?_)
    · have hsome := htaken k hk
      rw [hnew] at hsome
      cases hsome
    · rw [Table.find?_put]
      split_ifs
      · rfl
      · exact htaken j hj

/-- A row of the table stays. -/
theorem isSome (h : Grown drawn t rows t') {k : κ} (hk : (t.find? k).isSome) :
    (t'.find? k).isSome := by
  induction h with
  | done t => exact hk
  | @put t t' j r rows hnew hdrawn h ih =>
    apply ih
    rw [Table.find?_put]
    split_ifs
    · rfl
    · exact hk

/-- Tables that are the same up to drawn keys stay so when they grow by the
same rows. -/
theorem renamed {fixed : κ → Prop} {u u' : Table κ ρ} (hdrawn : ∀ k, drawn k → ¬ fixed k)
    (h : Grown drawn t rows t') (h' : Grown drawn u rows u') (hr : Renamed fixed t u) :
    Renamed fixed t' u' := by
  induction h generalizing u with
  | done t =>
    cases h' with
    | done u => exact hr
  | put hnew hd _ ih =>
    cases h' with
    | put hnew' hd' h' =>
      exact ih h' (hr.put_new (hdrawn _ hd) (hdrawn _ hd') hnew hnew' _)

end Grown

end Kitaza.RenamedTable
