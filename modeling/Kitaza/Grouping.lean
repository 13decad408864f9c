import Mathlib.Data.Finset.Option
import Kitaza.KeyedTable

/-!
# Groups of rows, and outer joins

`GROUP BY` makes one row of each group: the groups are the values the key
takes on the stored rows, and an aggregate says what becomes of the rows of
one. A full outer join puts two tables side by side, row by row under the same
key, and keeps the rows that have no partner. Grouping loses nothing of a
total, nor does a join.
-/

namespace Kitaza.Grouping

open KeyedTable

variable {κ ρ γ σ τ : Type*} [DecidableEq γ]

/-- The values a key takes on the stored rows. -/
def groups (t : Table κ ρ) (key : κ → ρ → γ) : Finset γ :=
  (t.ids.image fun k => (t.find? k).map (key k)).eraseNone

/-- The rows of one group. -/
def rowsOf (t : Table κ ρ) (key : κ → ρ → γ) (g : γ) : Table κ ρ :=
  t.filter fun k r => key k r == g

theorem mem_groups {t : Table κ ρ} {key : κ → ρ → γ} {g : γ} :
    g ∈ groups t key ↔ ∃ k r, t.find? k = some r ∧ key k r = g := by
  rw [groups, Finset.mem_eraseNone, Finset.mem_image]
  constructor
  · rintro ⟨k, -, hk⟩
    obtain ⟨r, hr, hg⟩ := Option.map_eq_some_iff.mp hk
    exact ⟨k, r, hr, hg⟩
  · rintro ⟨k, r, hr, hg⟩
    exact ⟨k, Table.mem_ids_of_find? hr, by rw [hr, Option.map_some, hg]⟩

/-- One row for each group. -/
def groupBy (t : Table κ ρ) (key : κ → ρ → γ) (aggregate : Table κ ρ → σ) : Table γ σ where
  ids := groups t key
  find? g := if g ∈ groups t key then some (aggregate (rowsOf t key g)) else none
  mem_ids g := by split_ifs with h <;> simp [h]

theorem find?_groupBy {t : Table κ ρ} {key : κ → ρ → γ} {aggregate : Table κ ρ → σ} {g : γ}
    {x : σ} : (groupBy t key aggregate).find? g = some x ↔
      (∃ k r, t.find? k = some r ∧ key k r = g) ∧ aggregate (rowsOf t key g) = x := by
  change (if g ∈ groups t key then some (aggregate (rowsOf t key g)) else none) = some x ↔ _
  rw [← mem_groups]
  split_ifs with h <;> simp [h]

/-- Both sides of a full outer join, under the keys of either. -/
def fullJoin (s : Table γ σ) (t : Table γ τ) : Table γ (Option σ × Option τ) where
  ids := s.ids ∪ t.ids
  find? g := if g ∈ s.ids ∪ t.ids then some (s.find? g, t.find? g) else none
  mem_ids g := by split_ifs with h <;> simp [h]

theorem find?_fullJoin {s : Table γ σ} {t : Table γ τ} {g : γ} {x : Option σ × Option τ} :
    (fullJoin s t).find? g = some x ↔
      (g ∈ s.ids ∨ g ∈ t.ids) ∧ x = (s.find? g, t.find? g) := by
  change (if g ∈ s.ids ∪ t.ids then some (s.find? g, t.find? g) else none) = some x ↔ _
  rw [← Finset.mem_union]
  split_ifs with h <;> simp [h, eq_comm]

section

variable {M : Type*} [AddCommMonoid M]

/-- The totals of the groups make the total. -/
theorem sum_groups (t : Table κ ρ) (key : κ → ρ → γ) (f : κ → ρ → M) :
    ∑ g ∈ groups t key, (rowsOf t key g).sum f = t.sum f := by
  have hgroup : ∀ g, (rowsOf t key g).sum f =
      ∑ k ∈ t.ids, if (t.find? k).map (key k) = some g then ((t.find? k).map (f k)).getD 0
        else 0 := by
    intro g
    rw [rowsOf, Table.sum_filter, Table.sum]
    apply Finset.sum_congr rfl
    intro k _
    cases t.find? k with
    | none => rfl
    | some r => simp
  simp only [hgroup]
  rw [Finset.sum_comm]
  apply Finset.sum_congr rfl
  intro k hk
  obtain ⟨r, hr⟩ := Option.isSome_iff_exists.mp ((t.mem_ids k).mp hk)
  have hmem : key k r ∈ groups t key := mem_groups.mpr ⟨k, r, hr, rfl⟩
  simp only [hr, Option.map_some, Option.some.injEq, Option.getD_some]
  rw [Finset.sum_ite_eq, if_pos hmem]

/-- What the groups come to is the total, where each comes to the total of its
rows. -/
theorem sum_groupBy {t : Table κ ρ} {key : κ → ρ → γ} {aggregate : Table κ ρ → σ}
    {figure : σ → M} {f : κ → ρ → M} (h : ∀ u, figure (aggregate u) = u.sum f) :
    ((groupBy t key aggregate).sum fun _ x => figure x) = t.sum f := by
  rw [← sum_groups t key f]
  apply Finset.sum_congr rfl
  intro g hg
  have hfind : (groupBy t key aggregate).find? g = some (aggregate (rowsOf t key g)) :=
    find?_groupBy.mpr ⟨mem_groups.mp hg, rfl⟩
  rw [hfind, Option.map_some, Option.getD_some]
  exact h _

/-- The total over a join, key by key. -/
theorem sum_fullJoin (s : Table γ σ) (t : Table γ τ) (f : Option σ × Option τ → M) :
    ((fullJoin s t).sum fun _ x => f x) = ∑ g ∈ s.ids ∪ t.ids, f (s.find? g, t.find? g) := by
  apply Finset.sum_congr rfl
  intro g hg
  have hfind : (fullJoin s t).find? g = some (s.find? g, t.find? g) :=
    find?_fullJoin.mpr ⟨Finset.mem_union.mp hg, rfl⟩
  rw [hfind]
  rfl

/-- A join comes to the total of the left side. -/
theorem sum_fullJoin_left (s : Table γ σ) (t : Table γ τ) (f : σ → M) :
    ((fullJoin s t).sum fun _ x => (x.1.map f).getD 0) = s.sum fun _ x => f x := by
  rw [sum_fullJoin s t fun x => (x.1.map f).getD 0]
  symm
  apply Finset.sum_subset Finset.subset_union_left
  intro g _ hg
  rw [Table.notMem_ids.mp hg]
  rfl

/-- And to that of the right side. -/
theorem sum_fullJoin_right (s : Table γ σ) (t : Table γ τ) (f : τ → M) :
    ((fullJoin s t).sum fun _ x => (x.2.map f).getD 0) = t.sum fun _ x => f x := by
  rw [sum_fullJoin s t fun x => (x.2.map f).getD 0]
  symm
  apply Finset.sum_subset Finset.subset_union_right
  intro g _ hg
  rw [Table.notMem_ids.mp hg]
  rfl

end

section

variable {δ : Type*} [DecidableEq δ] {R : ρ → σ → Prop} {t : Table κ ρ} {u : Table κ σ}
  {key : κ → ρ → γ} {key' : κ → σ → δ} {rename : δ → γ}

/-- Where two tables agree row for row, and their keys up to names, the groups
are the same up to names. -/
theorem groups_of_paired (h : Table.Paired R t u)
    (hkey : ∀ k r s, t.find? k = some r → u.find? k = some s → R r s →
      key k r = rename (key' k s)) : groups t key = (groups u key').image rename := by
  ext g
  simp only [Finset.mem_image, mem_groups]
  constructor
  · rintro ⟨k, r, hr, rfl⟩
    have hk := h k
    rw [hr] at hk
    generalize hs : u.find? k = s at hk
    cases hk with
    | some hrs => exact ⟨_, ⟨k, _, hs, rfl⟩, (hkey k r _ hr hs hrs).symm⟩
  · rintro ⟨_, ⟨k, s, hs, rfl⟩, rfl⟩
    have hk := h k
    rw [hs] at hk
    generalize hr : t.find? k = r at hk
    cases hk with
    | some hrs => exact ⟨k, _, hr, hkey k _ s hr hs hrs⟩

/-- And the rows of a group agree, provided no two groups get one name. -/
theorem rowsOf_paired (h : Table.Paired R t u)
    (hkey : ∀ k r s, t.find? k = some r → u.find? k = some s → R r s →
      key k r = rename (key' k s)) {d : δ}
    (hinj : ∀ k s, u.find? k = some s → rename (key' k s) = rename d → key' k s = d) :
    Table.Paired R (rowsOf t key (rename d)) (rowsOf u key' d) := by
  apply h.filter
  intro k r s hr hs hrs
  rw [hkey k r s hr hs hrs, Bool.eq_iff_iff, beq_iff_eq, beq_iff_eq]
  exact ⟨hinj k s hs, congrArg rename⟩

/-- And what an aggregate makes of a group, if it makes the same of rows that
agree. -/
theorem find?_groupBy_paired {A B : Type*} {aggregate : Table κ ρ → A} {aggregate' : Table κ σ → B}
    {f : A → B} (h : Table.Paired R t u)
    (hkey : ∀ k r s, t.find? k = some r → u.find? k = some s → R r s →
      key k r = rename (key' k s)) {d : δ}
    (hinj : ∀ k s, u.find? k = some s → rename (key' k s) = rename d → key' k s = d)
    (hagree : ∀ t' u', Table.Paired R t' u' → f (aggregate t') = aggregate' u') :
    ((groupBy t key aggregate).find? (rename d)).map f =
      (groupBy u key' aggregate').find? d := by
  have hmem : rename d ∈ groups t key ↔ d ∈ groups u key' := by
    rw [groups_of_paired h hkey, Finset.mem_image]
    constructor
    · rintro ⟨d', hd', hname⟩
      obtain ⟨k, s, hs, rfl⟩ := mem_groups.mp hd'
      rwa [hinj k s hs hname] at hd'
    · intro hd
      exact ⟨d, hd, rfl⟩
  change (if rename d ∈ groups t key then some (aggregate (rowsOf t key (rename d))) else none).map f =
    if d ∈ groups u key' then some (aggregate' (rowsOf u key' d)) else none
  rw [if_congr hmem rfl rfl]
  split_ifs
  · rw [Option.map_some, hagree _ _ (rowsOf_paired h hkey hinj)]
  · rfl

end

/-- Two tables with the same rows under keys in the same order are listed
alike. -/
theorem entries_eq_map {δ : Type*} [LinearOrder δ] {L : Type*} [LinearOrder L] {a : Table L τ}
    {b : Table δ σ} {rename : δ → L} {f : σ → τ}
    (hmono : ∀ d ∈ b.ids, ∀ d' ∈ b.ids, d < d' → rename d < rename d')
    (hrows : ∀ d x, b.find? d = some x → a.find? (rename d) = some (f x))
    (hnames : ∀ l ∈ a.ids, ∃ d ∈ b.ids, rename d = l) :
    a.entries = b.entries.map fun e => (rename e.1, f e.2) := by
  have hsorted : (b.entries.map fun e => (rename e.1, f e.2)).Pairwise fun x y => x.1 < y.1 := by
    rw [List.pairwise_map]
    apply (Table.entries_ascending b).imp_of_mem
    rintro ⟨d, x⟩ ⟨d', x'⟩ hd hd' hlt
    exact hmono d (Table.mem_ids_of_find? (Table.mem_entries.mp hd)) d'
      (Table.mem_ids_of_find? (Table.mem_entries.mp hd')) hlt
  have hperm : a.entries.Perm (b.entries.map fun e => (rename e.1, f e.2)) := by
    rw [List.perm_ext_iff_of_nodup (Table.nodup_entries a) (hsorted.imp fun h he => (he ▸ h).ne rfl)]
    rintro ⟨l, y⟩
    rw [Table.mem_entries, List.mem_map]
    constructor
    · intro hy
      obtain ⟨d, hd, rfl⟩ := hnames l (Table.mem_ids_of_find? hy)
      obtain ⟨x, hx⟩ := Option.isSome_iff_exists.mp ((b.mem_ids d).mp hd)
      rw [hrows d x hx] at hy
      cases hy
      exact ⟨(d, x), Table.mem_entries.mpr hx, rfl⟩
    · rintro ⟨⟨d, x⟩, hx, heq⟩
      cases heq
      exact hrows d x (Table.mem_entries.mp hx)
  exact hperm.eq_of_pairwise (fun x y _ _ hxy hyx => absurd hxy hyx.asymm)
    (Table.entries_ascending a) hsorted

end Kitaza.Grouping
