import Mathlib.Data.Finset.Max
import Mathlib.Data.Finset.Card
import Kitaza.KeyedTable

/-!
# Keeping what is stored under the greatest keys

Rows are stored under keys, an older one under the same key replaced, some are
taken away again, and from time to time all but the greatest few keys are
dropped. Whenever that happens, what was last stored under a key is there as
long as few enough greater keys were ever stored under, and nothing else is.
-/

namespace Kitaza.NewestKept

open KeyedTable

variable {κ ρ : Type*} [LinearOrder κ]

/-- The greatest members of a finite set: those with fewer than `n` greater. -/
def greatest (n : ℕ) (s : Finset κ) : Finset κ :=
  s.filter fun k => (s.filter (k < ·)).card < n

/-- There are `n` of them, or all. -/
theorem card_greatest (n : ℕ) (s : Finset κ) : (greatest n s).card = min n s.card := by
  induction s using Finset.induction_on_min with
  | empty => simp [greatest]
  | insert a s hmin ih =>
    have ha : a ∉ s := fun h => lt_irrefl a (hmin a h)
    have habove : ∀ k ∈ s, (insert a s).filter (k < ·) = s.filter (k < ·) := by
      intro k hk
      rw [Finset.filter_insert, if_neg (hmin k hk).not_gt]
    have hleast : (insert a s).filter (a < ·) = s := by
      rw [Finset.filter_insert, if_neg (lt_irrefl a), Finset.filter_true_of_mem hmin]
    have hrest : s.filter (fun k => ((insert a s).filter (k < ·)).card < n) = greatest n s := by
      apply Finset.filter_congr
      intro k hk
      rw [habove k hk]
    rw [greatest, Finset.filter_insert, hleast, hrest, Finset.card_insert_of_notMem ha]
    split
    next hlt =>
      have hnot : a ∉ greatest n s := fun h => ha (Finset.mem_of_mem_filter a h)
      rw [Finset.card_insert_of_notMem hnot, ih]
      omega
    next hge =>
      rw [ih]
      omega

/-- Drop all but the greatest keys, the table's rows being listed with the
greatest first. -/
def prune (n : ℕ) (t : Table κ ρ) : Table κ ρ :=
  (t.entries.reverse.drop n).foldl (fun t e => t.filter fun k _ => !decide (k = e.1)) t

theorem find?_foldl_filter (l : List (κ × ρ)) (t : Table κ ρ) (k : κ) :
    (l.foldl (fun t e => t.filter fun k _ => !decide (k = e.1)) t).find? k =
      if k ∈ l.map Prod.fst then none else t.find? k := by
  induction l generalizing t with
  | nil => rfl
  | cons e l ih =>
    rw [List.foldl_cons, ih, List.map_cons, Table.find?_filter]
    by_cases hrest : k ∈ l.map Prod.fst
    · rw [if_pos hrest, if_pos (List.mem_cons_of_mem _ hrest)]
    · rw [if_neg hrest]
      by_cases hthis : k = e.1
      · rw [if_pos (List.mem_cons.mpr (.inl hthis)), Option.filter_eq_none_iff]
        intro r _
        rw [decide_eq_true hthis]
        exact Bool.false_ne_true
      · rw [if_neg (by rw [List.mem_cons, not_or]; exact ⟨hthis, hrest⟩), decide_eq_false hthis]
        cases t.find? k <;> rfl

/-- What is left of a list in decreasing order after its first few members. -/
theorem mem_drop_iff {l : List κ} (hl : l.Pairwise fun a b => b < a) (n : ℕ) (k : κ) :
    k ∈ l.drop n ↔ k ∈ l ∧ n ≤ l.countP (k < ·) := by
  induction l generalizing n with
  | nil => simp
  | cons x l ih =>
    obtain ⟨hx, hl⟩ := List.pairwise_cons.mp hl
    cases n with
    | zero => simp
    | succ n =>
      rw [List.drop_succ_cons, ih hl, List.mem_cons, List.countP_cons]
      by_cases hk : k = x
      · subst hk
        have hnot : k ∉ l := fun h => lt_irrefl k (hx k h)
        have hnone : l.countP (k < ·) = 0 := by
          rw [List.countP_eq_zero]
          intro j hj
          rw [decide_eq_true_eq]
          exact (hx j hj).not_gt
        simp [hnot, hnone]
      · constructor
        · rintro ⟨hmem, hle⟩
          rw [if_pos (decide_eq_true (hx k hmem))]
          exact ⟨.inr hmem, by omega⟩
        · rintro ⟨hmem, hle⟩
          have hmem : k ∈ l := hmem.resolve_left hk
          rw [if_pos (decide_eq_true (hx k hmem))] at hle
          exact ⟨hmem, by omega⟩

theorem map_fst_entries (t : Table κ ρ) : t.entries.map Prod.fst = t.keys := by
  rw [Table.entries, List.map_filterMap]
  conv_rhs => rw [← List.filterMap_some (l := t.keys)]
  apply List.filterMap_congr
  intro k hk
  rw [Table.keys_eq_sort, Finset.mem_sort, t.mem_ids] at hk
  obtain ⟨r, hr⟩ := Option.isSome_iff_exists.mp hk
  rw [hr]
  rfl

theorem countP_keys (t : Table κ ρ) (k : κ) :
    t.keys.reverse.countP (k < ·) = (t.ids.filter (k < ·)).card := by
  have hperm : (t.keys.reverse.filter (k < ·)).Perm (t.ids.filter (k < ·)).toList := by
    rw [List.perm_ext_iff_of_nodup]
    · intro j
      rw [Table.keys_eq_sort]
      simp
    · rw [Table.keys_eq_sort]
      exact (List.nodup_reverse.mpr (Finset.sort_nodup _ _)).filter _
    · exact Finset.nodup_toList _
  rw [List.countP_eq_length_filter, hperm.length_eq, Finset.length_toList]

/-- What pruning leaves. -/
theorem find?_prune (n : ℕ) (t : Table κ ρ) (k : κ) :
    (prune n t).find? k = if (t.ids.filter (k < ·)).card < n then t.find? k else none := by
  have hdescending : t.keys.reverse.Pairwise fun a b => b < a := by
    rw [List.pairwise_reverse, Table.keys_eq_sort]
    exact t.ids.sortedLT_sort.pairwise
  rw [prune, find?_foldl_filter, List.map_drop, List.map_reverse, map_fst_entries]
  by_cases hfew : (t.ids.filter (k < ·)).card < n
  · rw [if_pos hfew, if_neg]
    rw [mem_drop_iff hdescending, countP_keys]
    omega
  · rw [if_neg hfew]
    split
    next => rfl
    next hnot =>
      rw [mem_drop_iff hdescending, countP_keys, List.mem_reverse, Table.keys_eq_sort,
        Finset.mem_sort] at hnot
      exact Table.notMem_ids.mp fun h => hnot ⟨h, by omega⟩

/-- Store a row under a key, or take away the one there. -/
def put (k : κ) (r : Option ρ) (t : Table κ ρ) : Table κ ρ :=
  match r with
  | some r => t.put k r
  | none => t.filter fun j _ => !decide (j = k)

theorem find?_put (k : κ) (r : Option ρ) (t : Table κ ρ) (j : κ) :
    (put k r t).find? j = if j = k then r else t.find? j := by
  cases r with
  | some r =>
    rw [put, Table.find?_put]
  | none =>
    rw [put, Table.find?_filter]
    by_cases h : j = k
    · rw [if_pos h, Option.filter_eq_none_iff]
      intro r _
      rw [decide_eq_true h]
      exact Bool.false_ne_true
    · rw [if_neg h, decide_eq_false h]
      cases t.find? j <;> rfl

/-- How many greater keys were ever stored under, the newest being first. -/
def greater (stored : List (κ × Option ρ)) (k : κ) : ℕ :=
  ((stored.map Prod.fst).toFinset.filter (k < ·)).card

/-- A table holds what was last stored under the greatest keys, and nothing that
was not last stored under its key. -/
structure Holds (n : ℕ) (stored : List (κ × Option ρ)) (t : Table κ ρ) : Prop where
  /-- The greatest keys are there. -/
  newest : ∀ k, greater stored k < n → t.find? k = (stored.lookup k).join
  /-- Nothing else is. -/
  only : ∀ k r, t.find? k = some r → stored.lookup k = some (some r)

variable {n : ℕ} {stored : List (κ × Option ρ)} {t : Table κ ρ}

theorem lookup_isSome {k : κ} : (stored.lookup k).isSome = true ↔ k ∈ stored.map Prod.fst := by
  induction stored with
  | nil => simp
  | cons e stored ih =>
    rw [List.lookup_cons, List.map_cons, List.mem_cons, ← ih]
    by_cases h : k = e.1
    · simp [h]
    · simp [h, beq_eq_false_iff_ne.mpr h]

theorem holds_empty : Holds n ([] : List (κ × Option ρ)) Table.empty := ⟨fun _ _ => rfl, nofun⟩

theorem Holds.ids_subset (h : Holds n stored t) : t.ids ⊆ (stored.map Prod.fst).toFinset := by
  intro k hk
  obtain ⟨r, hr⟩ := Option.isSome_iff_exists.mp ((t.mem_ids k).mp hk)
  rw [List.mem_toFinset, ← lookup_isSome, h.only k r hr]
  rfl

/-- Storing a row, or taking it away. -/
theorem Holds.put (h : Holds n stored t) (k : κ) (r : Option ρ) :
    Holds n ((k, r) :: stored) (put k r t) := by
  constructor
  · intro j hfew
    rw [find?_put, List.lookup_cons]
    by_cases hj : j = k
    · rw [if_pos hj, hj, beq_self_eq_true]
      rfl
    · rw [if_neg hj, beq_eq_false_iff_ne.mpr hj]
      apply h.newest
      refine (Finset.card_le_card (Finset.filter_subset_filter _ ?_)).trans_lt hfew
      rw [List.map_cons, List.toFinset_cons]
      exact Finset.subset_insert _ _
  · intro j s hs
    rw [find?_put] at hs
    rw [List.lookup_cons]
    by_cases hj : j = k
    · rw [if_pos hj] at hs
      rw [hj, beq_self_eq_true]
      exact congrArg some hs
    · rw [if_neg hj] at hs
      rw [beq_eq_false_iff_ne.mpr hj]
      exact h.only j s hs

/-- Pruning leaves what has few enough greater keys in the table. -/
theorem Holds.prune (h : Holds n stored t) : Holds n stored (prune n t) := by
  constructor
  · intro k hfew
    have hsub := Finset.card_le_card (Finset.filter_subset_filter (k < ·) h.ids_subset)
    rw [find?_prune, if_pos (hsub.trans_lt hfew), h.newest k hfew]
  · intro k r hr
    rw [find?_prune] at hr
    split at hr
    next => exact h.only k r hr
    next => cases hr

/-- After pruning there are no more rows than that. -/
theorem card_ids_prune (n : ℕ) (t : Table κ ρ) : (prune n t).ids.card ≤ n := by
  have hsub : (prune n t).ids ⊆ greatest n t.ids := by
    intro k hk
    rw [Table.mem_ids, find?_prune] at hk
    split at hk
    next hfew => exact Finset.mem_filter.mpr ⟨(t.mem_ids k).mpr hk, hfew⟩
    next => cases hk
  have hcard := Finset.card_le_card hsub
  rw [card_greatest] at hcard
  omega

end Kitaza.NewestKept
