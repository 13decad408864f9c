import Mathlib.Algebra.Order.BigOperators.Group.Finset
import Mathlib.Algebra.BigOperators.Group.Finset.Basic
import Mathlib.Algebra.BigOperators.Group.Finset.Piecewise
import Mathlib.Data.Finset.Sort
import Mathlib.Data.Fintype.Quotient

/-!
# Tables keyed by a primary key

A table is a finite partial map from keys to rows. The key set is carried
as a finite set, so a table can be listed, searched and summed, and two
tables with the same lookups are equal. The operations are the statement
forms a relational store needs: insert or replace one row, rewrite rows
in place, delete the rows a predicate rejects, and take one table's rows
on a set of keys with another's elsewhere.

Nothing here knows what the rows are.
-/

namespace Kitaza.KeyedTable

variable {κ ρ : Type*}

/-- A finite map from primary keys to rows. -/
structure Table (κ ρ : Type*) where
  /-- The keys in use. -/
  ids : Finset κ
  /-- The row stored under a key. -/
  find? : κ → Option ρ
  /-- The key set is exactly where the lookup succeeds. -/
  mem_ids : ∀ k, k ∈ ids ↔ (find? k).isSome

namespace Table

theorem notMem_ids {t : Table κ ρ} {k : κ} : k ∉ t.ids ↔ t.find? k = none := by
  rw [t.mem_ids, Bool.not_eq_true, Option.isSome_eq_false_iff, Option.isNone_iff_eq_none]

theorem mem_ids_of_find? {t : Table κ ρ} {k : κ} {r : ρ} (h : t.find? k = some r) :
    k ∈ t.ids := by
  rw [t.mem_ids, h]
  rfl

/-- A table is determined by its lookups. -/
theorem ext_find? {s t : Table κ ρ} (h : ∀ k, s.find? k = t.find? k) : s = t := by
  obtain ⟨si, sf, hs⟩ := s
  obtain ⟨ti, tf, ht⟩ := t
  obtain rfl : sf = tf := funext h
  have hi : si = ti := by
    ext k
    rw [hs, ht]
  subst hi
  rfl

/-- The table without rows. -/
def empty : Table κ ρ where
  ids := ∅
  find? _ := none
  mem_ids k := by simp

instance : Inhabited (Table κ ρ) := ⟨empty⟩

@[simp] theorem find?_empty (k : κ) : (empty : Table κ ρ).find? k = none := rfl

/-- Rewrite every row in place; keys never change. -/
def mapRows (t : Table κ ρ) (f : κ → ρ → ρ) : Table κ ρ where
  ids := t.ids
  find? k := (t.find? k).map (f k)
  mem_ids k := by rw [Option.isSome_map, t.mem_ids]

@[simp] theorem find?_mapRows (t : Table κ ρ) (f : κ → ρ → ρ) (k : κ) :
    (t.mapRows f).find? k = (t.find? k).map (f k) := rfl

@[simp] theorem ids_mapRows (t : Table κ ρ) (f : κ → ρ → ρ) : (t.mapRows f).ids = t.ids := rfl

/-- Rewriting each row to itself changes nothing. -/
theorem mapRows_eq_self {t : Table κ ρ} {f : κ → ρ → ρ}
    (h : ∀ k r, t.find? k = some r → f k r = r) : t.mapRows f = t := by
  apply ext_find?
  intro k
  rw [find?_mapRows]
  cases hk : t.find? k with
  | none => rfl
  | some r => rw [Option.map_some, h k r hk]

theorem mapRows_mapRows (t : Table κ ρ) (f g : κ → ρ → ρ) :
    (t.mapRows f).mapRows g = t.mapRows fun k r => g k (f k r) := by
  apply ext_find?
  intro k
  simp [Function.comp_def]

/-- Keep the rows that satisfy the predicate. -/
def filter (t : Table κ ρ) (p : κ → ρ → Bool) : Table κ ρ where
  ids := t.ids.filter fun k => (t.find? k).any (p k)
  find? k := (t.find? k).filter (p k)
  mem_ids k := by
    rw [Finset.mem_filter, t.mem_ids]
    cases t.find? k <;> simp [Option.filter]

@[simp] theorem find?_filter (t : Table κ ρ) (p : κ → ρ → Bool) (k : κ) :
    (t.filter p).find? k = (t.find? k).filter (p k) := rfl

theorem find?_filter_eq_some {t : Table κ ρ} {p : κ → ρ → Bool} {k : κ} {r : ρ} :
    (t.filter p).find? k = some r ↔ t.find? k = some r ∧ p k r = true := by
  rw [find?_filter, Option.filter_eq_some_iff]

theorem mem_ids_filter {t : Table κ ρ} {p : κ → ρ → Bool} {k : κ} :
    k ∈ (t.filter p).ids ↔ ∃ r, t.find? k = some r ∧ p k r = true := by
  rw [mem_ids, Option.isSome_iff_exists]
  simp only [find?_filter_eq_some]

/-- Keeping every row changes nothing. -/
theorem filter_true (t : Table κ ρ) : t.filter (fun _ _ => true) = t := by
  apply ext_find?
  intro k
  rw [find?_filter]
  cases t.find? k <;> rfl

/-- Turn every row into another one, or drop it. -/
def filterMap {σ : Type*} (t : Table κ ρ) (f : κ → ρ → Option σ) : Table κ σ where
  ids := t.ids.filter fun k => ((t.find? k).bind (f k)).isSome
  find? k := (t.find? k).bind (f k)
  mem_ids k := by
    rw [Finset.mem_filter, t.mem_ids]
    cases t.find? k <;> simp

@[simp] theorem find?_filterMap {σ : Type*} (t : Table κ ρ) (f : κ → ρ → Option σ) (k : κ) :
    (t.filterMap f).find? k = (t.find? k).bind (f k) := rfl

/-- Picking out at most one key depends on that row only. -/
theorem filter_eq_of_key {s t : Table κ ρ} {p : κ → ρ → Bool} {k : κ}
    (hp : ∀ j r, p j r = true → j = k) (h : s.find? k = t.find? k) : s.filter p = t.filter p := by
  have hother : ∀ (u : Table κ ρ) j, j ≠ k → (u.find? j).filter (p j) = none := by
    intro u j hj
    rw [Option.filter_eq_none_iff]
    exact fun r _ hr => hj (hp j r hr)
  apply ext_find?
  intro j
  rw [find?_filter, find?_filter]
  by_cases hj : j = k
  · rw [hj, h]
  · rw [hother s j hj, hother t j hj]

/-- The table that takes its rows from `mine` on the given keys and from
`base` everywhere else. -/
def overlay [DecidableEq κ] (base mine : Table κ ρ) (keys : Finset κ) : Table κ ρ where
  ids := (base.ids \ keys) ∪ (mine.ids ∩ keys)
  find? k := if k ∈ keys then mine.find? k else base.find? k
  mem_ids k := by
    by_cases hk : k ∈ keys <;> simp [hk, base.mem_ids, mine.mem_ids]

@[simp] theorem find?_overlay [DecidableEq κ] (base mine : Table κ ρ) (keys : Finset κ) (k : κ) :
    (overlay base mine keys).find? k = if k ∈ keys then mine.find? k else base.find? k := rfl

section Keyed

variable [DecidableEq κ]

/-- A table whose rows elsewhere are those of the base is its own overlay. -/
theorem overlay_eq {base mine : Table κ ρ} {keys : Finset κ}
    (h : ∀ k, k ∉ keys → mine.find? k = base.find? k) : overlay base mine keys = mine := by
  apply ext_find?
  intro k
  rw [find?_overlay]
  split_ifs with hk
  · rfl
  · exact (h k hk).symm

theorem overlay_empty (base mine : Table κ ρ) : overlay base mine ∅ = base := by
  apply ext_find?
  intro k
  simp

/-- What was written over an overlay is an overlay of the same base. -/
theorem overlay_union {base mine t : Table κ ρ} {a b : Finset κ}
    (h : overlay (overlay base mine a) t b = t) : overlay base t (a ∪ b) = t := by
  apply overlay_eq
  intro k hk
  rw [Finset.mem_union, not_or] at hk
  rw [← h, find?_overlay, find?_overlay, if_neg hk.2, if_neg hk.1]

/-- Overlays on different keys commute. -/
theorem overlay_comm {a b : Finset κ} (x y base : Table κ ρ) (h : Disjoint a b) :
    overlay (overlay base y b) x a = overlay (overlay base x a) y b := by
  apply ext_find?
  intro k
  simp only [find?_overlay]
  split_ifs with ha hb
  · exact absurd hb (Finset.disjoint_left.mp h ha)
  · rfl
  · rfl
  · rfl

/-- Rewriting rows in place, under an overlay it leaves alone. -/
theorem mapRows_overlay {base mine : Table κ ρ} {keys : Finset κ} {f g : κ → ρ → ρ}
    (hmine : ∀ k ∈ keys, ∀ r, mine.find? k = some r → f k r = r)
    (hbase : ∀ k, k ∉ keys → ∀ r, base.find? k = some r → f k r = g k r) :
    (overlay base mine keys).mapRows f = overlay (base.mapRows g) mine keys := by
  apply ext_find?
  intro k
  simp only [find?_mapRows, find?_overlay]
  split_ifs with hk
  · cases hr : mine.find? k with
    | none => rfl
    | some r => rw [Option.map_some, hmine k hk r hr]
  · cases hr : base.find? k with
    | none => rfl
    | some r => rw [Option.map_some, Option.map_some, hbase k hk r hr]

/-- Dropping rows, under an overlay whose rows stay. -/
theorem filter_overlay {base mine : Table κ ρ} {keys : Finset κ} {p : κ → ρ → Bool}
    (h : ∀ k ∈ keys, ∀ r, mine.find? k = some r → p k r = true) :
    (overlay base mine keys).filter p = overlay (base.filter p) mine keys := by
  apply ext_find?
  intro k
  simp only [find?_filter, find?_overlay]
  split_ifs with hk
  · cases hr : mine.find? k with
    | none => rfl
    | some r => rw [Option.filter_some, if_pos (h k hk r hr)]
  · rfl

/-- Picking rows that an overlay neither adds nor takes. -/
theorem filter_overlay_of_not {base mine : Table κ ρ} {keys : Finset κ} {p : κ → ρ → Bool}
    (h : ∀ k ∈ keys, ∀ r, mine.find? k = some r ∨ base.find? k = some r → p k r = false) :
    (overlay base mine keys).filter p = base.filter p := by
  apply ext_find?
  intro k
  simp only [find?_filter, find?_overlay]
  split_ifs with hk
  · have hm : (mine.find? k).filter (p k) = none := by
      rw [Option.filter_eq_none_iff]
      intro r hr
      rw [h k hk r (Or.inl hr)]
      exact Bool.false_ne_true
    have hb : (base.find? k).filter (p k) = none := by
      rw [Option.filter_eq_none_iff]
      intro r hr
      rw [h k hk r (Or.inr hr)]
      exact Bool.false_ne_true
    rw [hm, hb]
  · rfl

/-- Insert a row, replacing the row already stored under its key. -/
def put (t : Table κ ρ) (k : κ) (r : ρ) : Table κ ρ where
  ids := insert k t.ids
  find? j := if j = k then some r else t.find? j
  mem_ids j := by
    by_cases hj : j = k <;> simp [hj, t.mem_ids]

theorem find?_put (t : Table κ ρ) (k : κ) (r : ρ) (j : κ) :
    (t.put k r).find? j = if j = k then some r else t.find? j := rfl

@[simp] theorem find?_put_self (t : Table κ ρ) (k : κ) (r : ρ) :
    (t.put k r).find? k = some r := by
  rw [find?_put, if_pos rfl]

theorem find?_put_ne (t : Table κ ρ) {k j : κ} (r : ρ) (h : j ≠ k) :
    (t.put k r).find? j = t.find? j := by
  rw [find?_put, if_neg h]

/-- Storing the row a key already holds changes nothing. -/
theorem put_eq_self {t : Table κ ρ} {k : κ} {r : ρ} (h : t.find? k = some r) :
    t.put k r = t := by
  apply ext_find?
  intro j
  rw [find?_put]
  split_ifs with hj
  · rw [hj, h]
  · rfl

/-- Writing a row beside an overlay. -/
theorem put_overlay {base mine : Table κ ρ} {keys : Finset κ} {k : κ} (r : ρ) (hk : k ∉ keys) :
    (overlay base mine keys).put k r = overlay (base.put k r) mine keys := by
  apply ext_find?
  intro j
  simp only [find?_put, find?_overlay]
  by_cases hj : j = k
  · subst hj
    simp [hk]
  · simp [hj]

theorem put_comm (t : Table κ ρ) {j k : κ} (r s : ρ) (h : j ≠ k) :
    (t.put j r).put k s = (t.put k s).put j r := by
  apply ext_find?
  intro i
  simp only [find?_put]
  split_ifs with hk hj <;> simp_all

/-- Rewriting after an insertion inserts the rewritten row. -/
theorem mapRows_put (t : Table κ ρ) (f : κ → ρ → ρ) (k : κ) (r : ρ) :
    (t.put k r).mapRows f = (t.mapRows f).put k (f k r) := by
  apply ext_find?
  intro j
  rw [find?_mapRows, find?_put, find?_put, find?_mapRows]
  split_ifs with hj
  · rw [hj, Option.map_some]
  · rfl

/-- Insert rows one after the other. -/
def putAll (t : Table κ ρ) (rows : List (κ × ρ)) : Table κ ρ :=
  rows.foldl (fun t e => t.put e.1 e.2) t

/-- A key holds one of the rows inserted under it, or what it held. -/
theorem find?_putAll_cases (t : Table κ ρ) (rows : List (κ × ρ)) (k : κ) :
    (∃ r, (k, r) ∈ rows ∧ (t.putAll rows).find? k = some r) ∨
      (∀ r, (k, r) ∉ rows) ∧ (t.putAll rows).find? k = t.find? k := by
  induction rows generalizing t with
  | nil => exact Or.inr ⟨fun _ => List.not_mem_nil, rfl⟩
  | cons head rest ih =>
    rw [putAll, List.foldl_cons, ← putAll]
    rcases ih (t.put head.1 head.2) with ⟨r, hr, hfind⟩ | ⟨hnot, hfind⟩
    · exact Or.inl ⟨r, List.mem_cons_of_mem _ hr, hfind⟩
    · by_cases hk : k = head.1
      · subst hk
        exact Or.inl ⟨head.2, List.mem_cons_self, by rw [hfind, find?_put_self]⟩
      · refine Or.inr ⟨fun r hr => ?_, by rw [hfind, find?_put_ne _ _ hk]⟩
        rcases List.mem_cons.mp hr with rfl | hr
        · exact hk rfl
        · exact hnot r hr

/-- A key that is not among the inserted rows keeps its row. -/
theorem find?_putAll_of_notMem {rows : List (κ × ρ)} {k : κ} (h : ∀ r, (k, r) ∉ rows)
    (t : Table κ ρ) : (t.putAll rows).find? k = t.find? k := by
  rcases t.find?_putAll_cases rows k with ⟨r, hr, -⟩ | ⟨-, hfind⟩
  · exact absurd hr (h r)
  · exact hfind

/-- A key inserted with one row only holds it. -/
theorem find?_putAll_of_mem {rows : List (κ × ρ)} {k : κ} {r : ρ} (hmem : (k, r) ∈ rows)
    (hone : ∀ s, (k, s) ∈ rows → s = r) (t : Table κ ρ) :
    (t.putAll rows).find? k = some r := by
  rcases t.find?_putAll_cases rows k with ⟨s, hs, hfind⟩ | ⟨hnot, -⟩
  · rw [hfind, hone s hs]
  · exact absurd hmem (hnot r)

end Keyed

/-- Whether some stored row satisfies the predicate. -/
def Any (t : Table κ ρ) (p : κ → ρ → Prop) : Prop := ∃ k r, t.find? k = some r ∧ p k r

instance (t : Table κ ρ) (p : κ → ρ → Prop) [∀ k r, Decidable (p k r)] : Decidable (t.Any p) :=
  decidable_of_iff (∃ k ∈ t.ids, ∃ r ∈ t.find? k, p k r) <| by
    constructor
    · rintro ⟨k, _, r, hr, hp⟩
      exact ⟨k, r, hr, hp⟩
    · rintro ⟨k, r, hr, hp⟩
      exact ⟨k, mem_ids_of_find? hr, r, hr, hp⟩

theorem not_any {t : Table κ ρ} {p : κ → ρ → Prop} :
    ¬ t.Any p ↔ ∀ k r, t.find? k = some r → ¬ p k r := by
  simp [Any]

/-- No row satisfies the predicate after a write when the new one does not and
none of the others did. -/
theorem not_any_put [DecidableEq κ] {t : Table κ ρ} {k : κ} {r : ρ} {p : κ → ρ → Prop} :
    ¬ (t.put k r).Any p ↔ ¬ p k r ∧ ∀ j s, j ≠ k → t.find? j = some s → ¬ p j s := by
  rw [not_any]
  constructor
  · intro h
    refine ⟨h k r (find?_put_self _ _ _), fun j s hj hs => h j s ?_⟩
    rw [find?_put_ne _ _ hj]
    exact hs
  · rintro ⟨hnew, hothers⟩ j s hs
    rw [find?_put] at hs
    split_ifs at hs with hj
    · cases hs
      rw [hj]
      exact hnew
    · exact hothers j s hj hs

/-- The keys in use, in increasing order. -/
def keys [LinearOrder κ] (t : Table κ ρ) : List κ :=
  Quotient.liftOn t.ids.val (List.insertionSort (· ≤ ·)) fun a b h => by
    have hp : (a.insertionSort (· ≤ ·)).Perm (b.insertionSort (· ≤ ·)) :=
      ((List.perm_insertionSort _ a).trans h).trans (List.perm_insertionSort _ b).symm
    exact hp.eq_of_pairwise' (List.pairwise_insertionSort _ a) (List.pairwise_insertionSort _ b)

theorem keys_eq_sort [LinearOrder κ] (t : Table κ ρ) : t.keys = t.ids.sort (· ≤ ·) := by
  unfold keys Finset.sort
  induction t.ids.val using Quotient.inductionOn with
  | h l => exact (List.mergeSort_eq_insertionSort _ l).symm

/-- The stored keys and rows in key order. -/
def entries [LinearOrder κ] (t : Table κ ρ) : List (κ × ρ) :=
  t.keys.filterMap fun k => (t.find? k).map fun r => (k, r)

theorem mem_entries [LinearOrder κ] {t : Table κ ρ} {k : κ} {r : ρ} :
    (k, r) ∈ t.entries ↔ t.find? k = some r := by
  simp only [entries, keys_eq_sort, List.mem_filterMap, Finset.mem_sort, Option.map_eq_some_iff]
  constructor
  · rintro ⟨j, _, s, hs, he⟩
    cases he
    exact hs
  · intro h
    exact ⟨k, mem_ids_of_find? h, r, h, rfl⟩

/-- Rewriting rows in place rewrites the listing. -/
theorem entries_mapRows [LinearOrder κ] (t : Table κ ρ) (f : κ → ρ → ρ) :
    (t.mapRows f).entries = t.entries.map fun e => (e.1, f e.1 e.2) := by
  simp only [entries, keys, ids_mapRows, find?_mapRows, List.map_filterMap]
  apply List.filterMap_congr
  intro k _
  cases t.find? k <;> rfl

/-- The rows are listed once each, in strictly increasing key order. -/
theorem entries_ascending [LinearOrder κ] (t : Table κ ρ) :
    t.entries.Pairwise fun a b => a.1 < b.1 := by
  rw [entries, keys_eq_sort]
  refine List.Pairwise.filterMap _ ?_ t.ids.sortedLT_sort.pairwise
  intro j k hjk a ha b hb
  simp only [Option.map_eq_some_iff] at ha hb
  obtain ⟨_, _, rfl⟩ := ha
  obtain ⟨_, _, rfl⟩ := hb
  exact hjk

theorem nodup_entries [LinearOrder κ] (t : Table κ ρ) : t.entries.Nodup :=
  (entries_ascending t).imp fun h he => (he ▸ h).ne rfl

/-- Dropping rows drops them from the listing. -/
theorem entries_filter [LinearOrder κ] (t : Table κ ρ) (p : κ → ρ → Bool) :
    (t.filter p).entries = t.entries.filter fun e => p e.1 e.2 := by
  have hp : ((t.filter p).entries).Perm (t.entries.filter fun e => p e.1 e.2) := by
    rw [List.perm_ext_iff_of_nodup (nodup_entries _) ((nodup_entries t).filter _)]
    rintro ⟨k, r⟩
    rw [List.mem_filter, mem_entries, mem_entries, find?_filter_eq_some]
  refine hp.eq_of_pairwise ?_ (entries_ascending _) ((entries_ascending t).filter _)
  intro a b _ _ hab hba
  exact absurd (hab.trans hba) (lt_irrefl _)

/-- The first row in key order that satisfies the predicate. -/
def first? [LinearOrder κ] (t : Table κ ρ) (p : κ → ρ → Bool) : Option ρ :=
  (t.entries.find? fun e => p e.1 e.2).map Prod.snd

/-- The row under the key that a rule picks among the keys. -/
def picked (t : Table κ ρ) (pick : Finset κ → κ) : Option ρ := t.find? (pick t.ids)

section Picked

variable {t : Table κ ρ} {pick : Finset κ → κ}

/-- A rule that picks among the keys finds a row unless there is none. -/
theorem picked_eq_none (h : ∀ ids : Finset κ, ids.Nonempty → pick ids ∈ ids) :
    t.picked pick = none ↔ ∀ k, t.find? k = none := by
  constructor
  · intro hn k
    rw [← notMem_ids]
    intro hk
    exact notMem_ids.mpr hn (h t.ids ⟨k, hk⟩)
  · exact fun hn => hn _

theorem picked_eq_some {r : ρ} (h : t.picked pick = some r) :
    t.find? (pick t.ids) = some r := h

/-- Rewriting rows in place rewrites the picked one. -/
theorem picked_mapRows (g : ρ → ρ) :
    (t.mapRows fun _ => g).picked pick = (t.picked pick).map g := rfl

end Picked

/-- Some rewritten row satisfies the predicate when some row does after
rewriting. -/
theorem any_mapRows {t : Table κ ρ} {f : κ → ρ → ρ} {p : κ → ρ → Prop} :
    (t.mapRows f).Any p ↔ t.Any fun k r => p k (f k r) := by
  constructor
  · rintro ⟨k, r, hr, hp⟩
    obtain ⟨s, hs, rfl⟩ := Option.map_eq_some_iff.mp hr
    exact ⟨k, s, hs, hp⟩
  · rintro ⟨k, r, hr, hp⟩
    exact ⟨k, f k r, by rw [find?_mapRows, hr, Option.map_some], hp⟩

/-- Filtering rewritten rows rewrites the filtered ones. -/
theorem filter_mapRows (t : Table κ ρ) (f : κ → ρ → ρ) (p : κ → ρ → Bool) :
    (t.mapRows f).filter p = (t.filter fun k r => p k (f k r)).mapRows f := by
  apply ext_find?
  intro k
  rw [find?_filter, find?_mapRows, find?_mapRows, find?_filter]
  cases t.find? k with
  | none => rfl
  | some r => cases h : p k (f k r) <;> simp [Option.filter, h]

/-- Whether the rows that satisfy a predicate are the same in two tables. -/
def Kept (p : κ → ρ → Prop) (t t' : Table κ ρ) : Prop :=
  ∀ k r, p k r → (t'.find? k = some r ↔ t.find? k = some r)

theorem Kept.refl (p : κ → ρ → Prop) (t : Table κ ρ) : Kept p t t := fun _ _ _ => Iff.rfl

theorem Kept.of_eq {p : κ → ρ → Prop} {t t' : Table κ ρ} (h : t' = t) : Kept p t t' := by
  rw [h]
  exact Kept.refl p t

/-- Rows kept twice are kept; the second predicate may be a wider one. -/
theorem Kept.trans {p q : κ → ρ → Prop} {a b c : Table κ ρ} (hab : Kept p a b) (hbc : Kept q b c)
    (h : ∀ k r, p k r → q k r) : Kept p a c :=
  fun k r hp => (hbc k r (h k r hp)).trans (hab k r hp)

/-- Writing a row keeps the rows that are neither it nor the one before. -/
theorem Kept.put [DecidableEq κ] {p : κ → ρ → Prop} {t : Table κ ρ} {k : κ} {r : ρ}
    (hnew : ¬p k r) (hold : ∀ s, t.find? k = some s → ¬p k s) : Kept p t (t.put k r) := by
  intro j s hp
  by_cases hj : j = k
  · subst hj
    rw [find?_put_self]
    constructor
    · intro h
      cases h
      exact absurd hp hnew
    · exact fun h => absurd hp (hold s h)
  · rw [find?_put_ne _ _ hj]

/-- Rewriting rows keeps those that are rewritten to themselves. -/
theorem Kept.mapRows {p : κ → ρ → Prop} {t : Table κ ρ} {f : κ → ρ → ρ}
    (h : ∀ k r, t.find? k = some r → p k r ∨ p k (f k r) → f k r = r) : Kept p t (t.mapRows f) := by
  intro k r hp
  rw [find?_mapRows]
  constructor
  · intro hr
    obtain ⟨s, hs, rfl⟩ := Option.map_eq_some_iff.mp hr
    rw [h k s hs (Or.inr hp)]
    exact hs
  · intro hr
    rw [hr, Option.map_some, h k r hr (Or.inl hp)]

/-- Filtering keeps the rows that pass. -/
theorem Kept.filter {p : κ → ρ → Prop} {t : Table κ ρ} {q : κ → ρ → Bool}
    (h : ∀ k r, p k r → q k r = true) : Kept p t (t.filter q) := by
  intro k r hp
  rw [find?_filter_eq_some]
  exact and_iff_left (h k r hp)

section Sum

variable {M : Type*} [AddCommMonoid M]

/-- The total of a figure over the stored rows. -/
def sum (t : Table κ ρ) (f : κ → ρ → M) : M :=
  ∑ k ∈ t.ids, ((t.find? k).map (f k)).getD 0

theorem sum_congr {t : Table κ ρ} {f g : κ → ρ → M}
    (h : ∀ k r, t.find? k = some r → f k r = g k r) : t.sum f = t.sum g := by
  apply Finset.sum_congr rfl
  intro k _
  cases hk : t.find? k with
  | none => rfl
  | some r => simp only [Option.map_some, Option.getD_some, h k r hk]

theorem sum_eq_zero {t : Table κ ρ} {f : κ → ρ → M}
    (h : ∀ k r, t.find? k = some r → f k r = 0) : t.sum f = 0 := by
  rw [sum_congr h]
  apply Finset.sum_eq_zero
  intro k _
  cases t.find? k <;> rfl

/-- A total to which at most one row contributes. -/
theorem sum_eq_single [DecidableEq κ] {t : Table κ ρ} {f : κ → ρ → M} {k : κ} {r : ρ}
    (hk : t.find? k = some r) (h : ∀ j s, t.find? j = some s → j ≠ k → f j s = 0) :
    t.sum f = f k r := by
  unfold sum
  rw [Finset.sum_eq_single k]
  · rw [hk]
    rfl
  · intro j _ hj
    cases hs : t.find? j with
    | none => rfl
    | some s => exact h j s hs hj
  · intro hn
    rw [notMem_ids.mp hn]
    rfl

@[simp] theorem sum_empty (f : κ → ρ → M) : (empty : Table κ ρ).sum f = 0 := rfl

theorem sum_add (t : Table κ ρ) (f g : κ → ρ → M) :
    (t.sum fun k r => f k r + g k r) = t.sum f + t.sum g := by
  unfold sum
  rw [← Finset.sum_add_distrib]
  apply Finset.sum_congr rfl
  intro k _
  cases t.find? k <;> simp

@[simp] theorem sum_mapRows (t : Table κ ρ) (g : κ → ρ → ρ) (f : κ → ρ → M) :
    (t.mapRows g).sum f = t.sum fun k r => f k (g k r) := by
  apply Finset.sum_congr rfl
  intro k _
  rw [find?_mapRows, Option.map_map]
  rfl

theorem sum_filter (t : Table κ ρ) (p : κ → ρ → Bool) (f : κ → ρ → M) :
    (t.filter p).sum f = t.sum fun k r => if p k r then f k r else 0 := by
  unfold sum
  rw [filter, Finset.sum_filter]
  apply Finset.sum_congr rfl
  intro k _
  cases hk : t.find? k with
  | none => simp
  | some r => by_cases hp : p k r = true <;> simp [hk, Option.filter, hp]

/-- A total is the one of the listing. -/
theorem sum_eq_entries [LinearOrder κ] (t : Table κ ρ) (f : κ → ρ → M) :
    t.sum f = (t.entries.map fun e => f e.1 e.2).sum := by
  have hsort : t.sum f = ((t.ids.sort (· ≤ ·)).map fun k =>
      ((t.find? k).map (f k)).getD 0).sum := by
    rw [← List.sum_toFinset _ (Finset.sort_nodup _ _), Finset.sort_toFinset]
    rfl
  rw [hsort, entries, keys_eq_sort]
  induction t.ids.sort (· ≤ ·) with
  | nil => rfl
  | cons k rest ih =>
    cases hk : t.find? k with
    | none => simpa [hk] using ih
    | some r =>
      simp only [List.map_cons, List.sum_cons, List.filterMap_cons, hk, Option.map_some,
        Option.getD_some]
      rw [ih]

/-- The total over rows that were listed, each under a key of its own. -/
theorem sum_eq_listed [DecidableEq κ] {β : Type*} {t : Table κ ρ} {l : List β} {key : β → κ}
    {row : β → ρ} (hnodup : (l.map key).Nodup)
    (h : ∀ k r, t.find? k = some r ↔ ∃ b ∈ l, key b = k ∧ r = row b) (f : κ → ρ → M) :
    t.sum f = (l.map fun b => f (key b) (row b)).sum := by
  have hids : t.ids = (l.map key).toFinset := by
    ext k
    rw [mem_ids, Option.isSome_iff_exists, List.mem_toFinset, List.mem_map]
    constructor
    · rintro ⟨r, hr⟩
      obtain ⟨b, hb, hk, -⟩ := (h k r).mp hr
      exact ⟨b, hb, hk⟩
    · rintro ⟨b, hb, hk⟩
      exact ⟨row b, (h k (row b)).mpr ⟨b, hb, hk, rfl⟩⟩
  rw [sum, hids, List.sum_toFinset _ hnodup, List.map_map]
  refine congrArg List.sum (List.map_congr_left fun b hb => ?_)
  simp only [Function.comp_apply, (h (key b) (row b)).mpr ⟨b, hb, rfl, rfl⟩, Option.map_some,
    Option.getD_some]

/-- A row inserted under a fresh key adds its own figure. -/
theorem sum_put_of_none [DecidableEq κ] {t : Table κ ρ} {k : κ} (r : ρ) (f : κ → ρ → M)
    (h : t.find? k = none) : (t.put k r).sum f = f k r + t.sum f := by
  unfold sum
  have hk : k ∉ t.ids := notMem_ids.mpr h
  change ∑ j ∈ insert k t.ids, _ = _
  rw [Finset.sum_insert hk, find?_put_self]
  congr 1
  apply Finset.sum_congr rfl
  intro j hj
  have hne : j ≠ k := fun he => hk (by rwa [he] at hj)
  rw [find?_put_ne _ _ hne]

/-- What a row that replaces another adds to the total. -/
theorem sum_put_replaced [DecidableEq κ] {t : Table κ ρ} {k : κ} {s : ρ} (r : ρ) (f : κ → ρ → M)
    (h : t.find? k = some s) : (t.put k r).sum f + f k s = t.sum f + f k r := by
  have hrest : ∀ j ∈ t.ids.erase k, (((t.put k r).find? j).map (f j)).getD 0 =
      ((t.find? j).map (f j)).getD 0 := by
    intro j hj
    rw [find?_put_ne _ _ (Finset.ne_of_mem_erase hj)]
  have hk := mem_ids_of_find? h
  have hids : (t.put k r).ids = t.ids := Finset.insert_eq_of_mem hk
  rw [sum, sum, hids, ← Finset.sum_erase_add _ _ hk, ← Finset.sum_erase_add _ _ hk,
    Finset.sum_congr rfl hrest, find?_put_self, h]
  simp only [Option.map_some, Option.getD_some]
  rw [add_right_comm]

/-- Dropping rows and lowering figures lowers the total; where one figure is
lowered, strictly. -/
theorem sum_lt_of_rows {t t' : Table κ ρ} {f : κ → ρ → ℕ}
    (h : ∀ k r', t'.find? k = some r' → ∃ r, t.find? k = some r ∧ f k r' ≤ f k r) :
    t'.sum f ≤ t.sum f ∧
      ∀ k r, t.find? k = some r → 0 < f k r →
        (∀ r', t'.find? k = some r' → f k r' < f k r) → t'.sum f < t.sum f := by
  have hsub : t'.ids ⊆ t.ids := by
    intro k hk
    obtain ⟨r', hr'⟩ := Option.isSome_iff_exists.mp ((t'.mem_ids k).mp hk)
    obtain ⟨r, hr, _⟩ := h k r' hr'
    exact mem_ids_of_find? hr
  have hwide : t'.sum f = ∑ k ∈ t.ids, ((t'.find? k).map (f k)).getD 0 := by
    apply Finset.sum_subset hsub
    intro k _ hk
    rw [notMem_ids.mp hk]
    rfl
  have hle : ∀ k ∈ t.ids, ((t'.find? k).map (f k)).getD 0 ≤ ((t.find? k).map (f k)).getD 0 := by
    intro k _
    cases hk : t'.find? k with
    | none => exact Nat.zero_le _
    | some r' =>
      obtain ⟨r, hr, hf⟩ := h k r' hk
      rw [hr]
      exact hf
  rw [hwide]
  refine ⟨Finset.sum_le_sum hle, ?_⟩
  intro k r hr hpos hlt
  refine Finset.sum_lt_sum hle ⟨k, mem_ids_of_find? hr, ?_⟩
  rw [hr]
  cases hk : t'.find? k with
  | none => exact hpos
  | some r' => exact hlt r' hk

end Sum

section Paired

variable {σ M : Type*} [AddCommMonoid M]

/-- Two tables agree row for row. -/
def Paired (R : ρ → σ → Prop) (t : Table κ ρ) (u : Table κ σ) : Prop :=
  ∀ k, Option.Rel R (t.find? k) (u.find? k)

theorem Paired.ids_eq {R : ρ → σ → Prop} {t : Table κ ρ} {u : Table κ σ} (h : Paired R t u) :
    t.ids = u.ids := by
  ext k
  rw [t.mem_ids, u.mem_ids]
  generalize ht : t.find? k = r
  generalize hu : u.find? k = s
  have hk := h k
  rw [ht, hu] at hk
  cases hk <;> rfl

/-- Figures that agree row for row come to the same total. -/
theorem Paired.sum_eq {R : ρ → σ → Prop} {t : Table κ ρ} {u : Table κ σ} (h : Paired R t u)
    {f : κ → ρ → M} {g : κ → σ → M} (hfg : ∀ k r s, R r s → f k r = g k s) : t.sum f = u.sum g := by
  unfold sum
  rw [h.ids_eq]
  apply Finset.sum_congr rfl
  intro k _
  generalize ht : t.find? k = r
  generalize hu : u.find? k = s
  have hk := h k
  rw [ht, hu] at hk
  cases hk with
  | none => rfl
  | some hr =>
    rw [Option.map_some, Option.map_some, Option.getD_some, Option.getD_some, hfg k _ _ hr]

/-- Rows that agree and are kept or dropped alike agree after. -/
theorem Paired.filter {R : ρ → σ → Prop} {t : Table κ ρ} {u : Table κ σ} (h : Paired R t u)
    {p : κ → ρ → Bool} {q : κ → σ → Bool}
    (hpq : ∀ k r s, t.find? k = some r → u.find? k = some s → R r s → p k r = q k s) :
    Paired R (t.filter p) (u.filter q) := by
  intro k
  rw [find?_filter, find?_filter]
  have hk := h k
  generalize ht : t.find? k = r at hk
  generalize hu : u.find? k = s at hk
  cases hk with
  | none => exact .none
  | some hr =>
    rw [Option.filter_some, Option.filter_some, hpq k _ _ ht hu hr]
    split_ifs
    · exact .some hr
    · exact .none

end Paired

end Table

end Kitaza.KeyedTable
