import Mathlib.Data.List.Sort
import Kitaza.KeyedTable

/-!
# Keyset pages of a keyed table

A page holds the first rows, by an ordering key, past a mark; the key of
its last row is the next mark. Whatever changes between two pages, a row
that is ready and was not on the page still lies past the next mark.
-/

namespace Kitaza.KeysetPaging

open KeyedTable

variable {κ ρ K : Type*}

/-- The mark after a page: the key of its last row, if it has one. -/
def nextMark (key : κ → ρ → K) (mark : K) (rows : List (κ × ρ)) : K :=
  (rows.getLast?.map fun e => key e.1 e.2).getD mark

/-- The next mark is the old one or the key of a row on the page. -/
theorem nextMark_eq (key : κ → ρ → K) (mark : K) (rows : List (κ × ρ)) :
    nextMark key mark rows = mark ∨ ∃ e ∈ rows, nextMark key mark rows = key e.1 e.2 := by
  cases h : rows.getLast? with
  | none => exact Or.inl (by simp [nextMark, h])
  | some e => exact Or.inr ⟨e, List.mem_of_getLast? h, by simp [nextMark, h]⟩

variable [LinearOrder K]

/-- The mark stays below a bound of the old mark and of the page. -/
theorem nextMark_lt {key : κ → ρ → K} {mark x : K} {rows : List (κ × ρ)} (hm : mark < x)
    (hrows : ∀ e ∈ rows, key e.1 e.2 < x) : nextMark key mark rows < x := by
  rcases nextMark_eq key mark rows with h | ⟨e, he, h⟩
  · rwa [h]
  · rw [h]
    exact hrows e he

/-- How many rows lie past a mark. -/
def remaining (t : Table κ ρ) (key : κ → ρ → K) (mark : K) : ℕ :=
  (t.filter fun k r => decide (mark < key k r)).ids.card

theorem mem_past {t : Table κ ρ} {key : κ → ρ → K} {mark : K} {k : κ} :
    k ∈ (t.filter fun k r => decide (mark < key k r)).ids ↔
      ∃ r, t.find? k = some r ∧ mark < key k r := by
  rw [Table.mem_ids, Option.isSome_iff_exists]
  simp only [Table.find?_filter_eq_some, decide_eq_true_iff]

/-- A later mark leaves no more rows. -/
theorem remaining_anti {t : Table κ ρ} {key : κ → ρ → K} {mark mark' : K} (h : mark ≤ mark') :
    remaining t key mark' ≤ remaining t key mark := by
  apply Finset.card_le_card
  intro k hk
  obtain ⟨r, hr, hlt⟩ := mem_past.mp hk
  exact mem_past.mpr ⟨r, hr, h.trans_lt hlt⟩

variable [LinearOrder κ]

/-- The rows past the mark that are ready, in key order, up to the limit. -/
def page (t : Table κ ρ) (key : κ → ρ → K) (ready : κ → ρ → Bool) (mark : K) (limit : ℕ) :
    List (κ × ρ) :=
  ((t.entries.filter fun e => decide (mark < key e.1 e.2) && ready e.1 e.2).insertionSort
    fun a b => key a.1 a.2 ≤ key b.1 b.2).take limit

section

variable {t : Table κ ρ} {key : κ → ρ → K} {ready : κ → ρ → Bool} {mark : K} {limit : ℕ}

/-- A row on a page is stored, past the mark and ready. -/
theorem of_mem_page {e : κ × ρ} (h : e ∈ page t key ready mark limit) :
    t.find? e.1 = some e.2 ∧ mark < key e.1 e.2 ∧ ready e.1 e.2 = true := by
  have hs := (List.mem_insertionSort _).mp (List.mem_of_mem_take h)
  obtain ⟨he, hp⟩ := List.mem_filter.mp hs
  rw [Bool.and_eq_true, decide_eq_true_iff] at hp
  exact ⟨Table.mem_entries.mp he, hp⟩

/-- A rewriting that changes neither keys nor readiness rewrites the page. -/
theorem page_mapRows {f : κ → ρ → ρ} (hkey : ∀ k r, key k (f k r) = key k r)
    (hready : ∀ k r, ready k (f k r) = ready k r) :
    page (t.mapRows f) key ready mark limit =
      (page t key ready mark limit).map fun e => (e.1, f e.1 e.2) := by
  have hpast : (fun e : κ × ρ => decide (mark < key e.1 (f e.1 e.2)) && ready e.1 (f e.1 e.2)) =
      fun e => decide (mark < key e.1 e.2) && ready e.1 e.2 := by
    funext e
    rw [hkey, hready]
  rw [page, page, Table.entries_mapRows, List.filter_map, List.map_take]
  congr 1
  rw [List.map_insertionSort (fun a b : κ × ρ => key a.1 a.2 ≤ key b.1 b.2)
    (fun a b : κ × ρ => key a.1 a.2 ≤ key b.1 b.2)]
  · simp only [Function.comp_def, hpast]
  · intro a _ b _
    rw [hkey, hkey]

/-- A page is in key order. -/
theorem page_ordered : (page t key ready mark limit).Pairwise
    fun a b => key a.1 a.2 ≤ key b.1 b.2 :=
  (List.pairwise_insertionSort _ _).sublist (List.take_sublist _ _)

/-- A page shows no row twice. -/
theorem nodup_page : (page t key ready mark limit).Nodup := by
  have hsort := (List.perm_insertionSort (fun a b : κ × ρ => key a.1 a.2 ≤ key b.1 b.2)
    (t.entries.filter fun e => decide (mark < key e.1 e.2) && ready e.1 e.2)).nodup_iff.mpr
      ((Table.nodup_entries t).filter _)
  exact hsort.sublist (List.take_sublist _ _)

/-- A row that was ready and past the mark and is not on the page was cut
off: the page is full, and its rows come before. -/
theorem full_of_notMem_page {k : κ} {r : ρ} (hr : t.find? k = some r) (hm : mark < key k r)
    (hready : ready k r = true) (hn : (k, r) ∉ page t key ready mark limit) :
    (page t key ready mark limit).length = limit ∧
      ∀ e ∈ page t key ready mark limit, key e.1 e.2 ≤ key k r := by
  have hmem : (k, r) ∈ (t.entries.filter fun e => decide (mark < key e.1 e.2) && ready e.1 e.2).insertionSort
      fun a b => key a.1 a.2 ≤ key b.1 b.2 := by
    rw [List.mem_insertionSort, List.mem_filter]
    exact ⟨Table.mem_entries.mpr hr, by simp [hm, hready]⟩
  have hsorted := List.pairwise_insertionSort (fun a b : κ × ρ => key a.1 a.2 ≤ key b.1 b.2)
    (t.entries.filter fun e => decide (mark < key e.1 e.2) && ready e.1 e.2)
  rw [page] at hn ⊢
  rw [← List.take_append_drop limit (List.insertionSort _ _), List.mem_append] at hmem
  have hdrop := hmem.resolve_left hn
  constructor
  · apply List.length_take_of_le
    by_contra hlt
    rw [List.drop_of_length_le (by omega)] at hdrop
    cases hdrop
  · intro e he
    rw [← List.take_append_drop limit (List.insertionSort _ _), List.pairwise_append] at hsorted
    exact hsorted.2.2 e he (k, r) hdrop

/-- A mark never falls back. -/
theorem mark_le_nextMark :
    mark ≤ nextMark key mark (page t key ready mark limit) := by
  rcases nextMark_eq key mark (page t key ready mark limit) with h | ⟨e, he, h⟩
  · exact h.ge
  · rw [h]
    exact (of_mem_page he).2.1.le

/-- The next mark is at or past every row on the page. -/
theorem key_le_nextMark {e : κ × ρ} (he : e ∈ page t key ready mark limit) :
    key e.1 e.2 ≤ nextMark key mark (page t key ready mark limit) := by
  have hord : (page t key ready mark limit).Pairwise fun a b => key a.1 a.2 ≤ key b.1 b.2 :=
    page_ordered
  generalize page t key ready mark limit = rows at he hord ⊢
  rcases List.eq_nil_or_concat rows with rfl | ⟨init, last, rfl⟩
  · cases he
  · rw [nextMark, List.concat_eq_append, List.getLast?_concat, Option.map_some, Option.getD_some]
    rw [List.concat_eq_append, List.mem_append, List.mem_singleton] at he
    rw [List.concat_eq_append, List.pairwise_append] at hord
    rcases he with he | rfl
    · exact hord.2.2 e he last (List.mem_singleton_self _)
    · exact le_rfl

/-- A stored row past the mark is on the page or still past the next mark,
provided a row held back has a higher key than every ready one. -/
theorem mem_page_or_nextMark_lt {k : κ} {r : ρ} (hr : t.find? k = some r) (hm : mark < key k r)
    (hinj : ∀ j s, key j s = key k r → j = k)
    (hback : ready k r = false → ∀ j s, ready j s = true → key j s < key k r) :
    (k, r) ∈ page t key ready mark limit ∨
      nextMark key mark (page t key ready mark limit) < key k r := by
  by_cases hn : (k, r) ∈ page t key ready mark limit
  · exact Or.inl hn
  · right
    apply nextMark_lt hm
    intro e he
    obtain ⟨hfind, _, he_ready⟩ := of_mem_page he
    cases hready : ready k r with
    | false => exact hback hready e.1 e.2 he_ready
    | true =>
      apply ((full_of_notMem_page hr hm hready hn).2 e he).lt_of_ne
      intro heq
      have hk := hinj e.1 e.2 heq
      rw [hk, hr] at hfind
      have : e = (k, r) := Prod.ext hk (Option.some.inj hfind).symm
      exact hn (this ▸ he)

/-- A page with a row leaves fewer. -/
theorem remaining_nextMark_lt (h : page t key ready mark limit ≠ []) :
    remaining t key (nextMark key mark (page t key ready mark limit)) < remaining t key mark := by
  obtain ⟨e, he⟩ := List.exists_mem_of_ne_nil _ h
  obtain ⟨hfind, hlt, _⟩ := of_mem_page he
  apply Finset.card_lt_card
  rw [Finset.ssubset_iff_of_subset]
  · refine ⟨e.1, mem_past.mpr ⟨e.2, hfind, hlt⟩, ?_⟩
    intro hk
    obtain ⟨r, hr, hlt'⟩ := mem_past.mp hk
    rw [hfind] at hr
    cases hr
    exact absurd (key_le_nextMark he) hlt'.not_ge
  · intro k hk
    obtain ⟨r, hr, hlt'⟩ := mem_past.mp hk
    exact mem_past.mpr ⟨r, hr, mark_le_nextMark.trans_lt hlt'⟩

end

end Kitaza.KeysetPaging
