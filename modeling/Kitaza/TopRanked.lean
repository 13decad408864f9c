import Mathlib.Data.List.Sort
import Mathlib.Data.List.Perm.Subperm

/-!
# The first few of a list by a figure

A list arranged by a figure, largest first, and cut off after `n`. Which
elements are kept, and in what order, is the same for every arrangement exactly
when each tie is between elements that `n` others come before.
-/

namespace Kitaza.TopRanked

variable {α κ : Type*} [LinearOrder κ]

section

variable (key : α → κ)

/-- Arranged by the figure, largest first. -/
def Ranked (l : List α) : Prop := l.Pairwise fun x y => key y ≤ key x

/-- How many have a larger figure. -/
def above (l : List α) (x : α) : ℕ := l.countP fun y => key x < key y

/-- Elements that tie have `n` above them. -/
def Untied (n : ℕ) (l : List α) : Prop :=
  ∀ x ∈ l, ∀ y ∈ l, key x = key y → x ≠ y → n ≤ above key l x

instance [DecidableEq α] (n : ℕ) (l : List α) : Decidable (Untied key n l) :=
  inferInstanceAs (Decidable (∀ x ∈ l, ∀ y ∈ l, _))

/-- Arrange by the figure, elements that tie in the order they come in. -/
def rank (l : List α) : List α := l.insertionSort fun x y => key y ≤ key x

end

variable {key : α → κ}

instance total_le : Std.Total fun x y => key y ≤ key x := ⟨fun x y => le_total (key y) (key x)⟩

instance trans_le : IsTrans α fun x y => key y ≤ key x := ⟨fun _ _ _ h h' => h'.trans h⟩

theorem rank_perm (l : List α) : (rank key l).Perm l := List.perm_insertionSort _ l

theorem ranked_rank (l : List α) : Ranked key (rank key l) := List.pairwise_insertionSort _ l

/-- A method to arrange a list by a figure, largest first. Elements that tie
may come in any order. -/
structure Arrangement (key : α → κ) where
  /-- The list arranged. -/
  arrange : List α → List α
  /-- Nothing is lost. -/
  perm : ∀ l, (arrange l).Perm l
  /-- The largest come first. -/
  ranked : ∀ l, Ranked key (arrange l)

/-- The method that keeps elements that tie as they come. -/
def stable : Arrangement key := ⟨rank key, rank_perm, ranked_rank⟩

theorem above_perm {l l' : List α} (h : l.Perm l') (x : α) : above key l x = above key l' x :=
  h.countP_eq _

theorem untied_perm {n : ℕ} {l l' : List α} (h : l.Perm l') (hu : Untied key n l) :
    Untied key n l' := by
  intro x hx y hy hkey hne
  rw [← above_perm h]
  exact hu x (h.mem_iff.mpr hx) y (h.mem_iff.mpr hy) hkey hne

theorem Ranked.map {β : Type*} {key' : β → κ} {f : α → β} (h : ∀ x, key' (f x) = key x)
    {l : List α} (hl : Ranked key l) : Ranked key' (l.map f) := by
  rw [Ranked, List.pairwise_map]
  refine List.Pairwise.imp (fun hxy => ?_) hl
  rw [h, h]
  exact hxy

/-- At most the earlier elements are above one of an arranged list. -/
theorem above_le {l : List α} (hl : Ranked key l) {i : ℕ} (hi : i < l.length) :
    above key l l[i] ≤ i := by
  have hsplit : l = l.take i ++ l.drop i := (List.take_append_drop i l).symm
  have hlate : (l.drop i).countP (fun y => key l[i] < key y) = 0 := by
    rw [List.countP_eq_zero]
    intro y hy
    obtain ⟨j, hj, rfl⟩ := List.mem_iff_getElem.mp hy
    rw [List.getElem_drop, decide_eq_true_eq, not_lt]
    rcases Nat.eq_zero_or_pos j with rfl | hpos
    · rfl
    · exact List.pairwise_iff_getElem.mp hl i (i + j) hi _ (by omega)
  calc above key l l[i]
      = (l.take i ++ l.drop i).countP fun y => key l[i] < key y := by rw [above, ← hsplit]
    _ = (l.take i).countP fun y => key l[i] < key y := by
        rw [List.countP_append, hlate, Nat.add_zero]
    _ ≤ (l.take i).length := List.countP_le_length
    _ ≤ i := List.length_take_le i l

/-- Two arrangements of the same elements show the same figures. -/
theorem map_key_eq {l l' : List α} (h : l.Perm l') (hl : Ranked key l) (hl' : Ranked key l') :
    l.map key = l'.map key := by
  refine List.Perm.eq_of_pairwise (fun x y _ _ hyx hxy => le_antisymm hxy hyx) ?_ ?_ (h.map key)
  · exact List.pairwise_map.mpr hl
  · exact List.pairwise_map.mpr hl'

/-- Without ties among them, the first few are the same in every arrangement. -/
theorem take_eq {n : ℕ} {l l' : List α} (hu : Untied key n l) (h : l.Perm l')
    (hl : Ranked key l) (hl' : Ranked key l') : l.take n = l'.take n := by
  have hkeys := map_key_eq h hl hl'
  refine List.ext_getElem (by rw [List.length_take, List.length_take, h.length_eq]) ?_
  intro i hi hi'
  rw [List.length_take] at hi hi'
  rw [List.getElem_take, List.getElem_take]
  have hi₁ : i < l.length := by omega
  have hi₂ : i < l'.length := by omega
  have hkey : key l[i] = key l'[i] := by
    have hget := congrArg (fun keys => keys[i]?) hkeys
    simp only [List.getElem?_map, List.getElem?_eq_getElem hi₁, List.getElem?_eq_getElem hi₂,
      Option.map_some, Option.some.injEq] at hget
    exact hget
  by_contra hne
  have hmany := hu l[i] (List.getElem_mem hi₁) l'[i] (h.mem_iff.mpr (List.getElem_mem hi₂))
    hkey hne
  have hfew := above_le hl hi₁
  omega

/-- What is cut off has a figure no larger than any that is kept, and the list
was full. -/
theorem of_notMem_take {n : ℕ} {l : List α} (hl : Ranked key l) {x : α} (hx : x ∈ l)
    (hn : x ∉ l.take n) : (l.take n).length = n ∧ ∀ y ∈ l.take n, key x ≤ key y := by
  have hlate : x ∈ l.drop n := by
    rw [← List.take_append_drop n l, List.mem_append] at hx
    exact hx.resolve_left hn
  constructor
  · apply List.length_take_of_le
    by_contra hshort
    rw [List.drop_of_length_le (by omega)] at hlate
    cases hlate
  · intro y hy
    rw [Ranked, ← List.take_append_drop n l, List.pairwise_append] at hl
    exact hl.2.2 y hy x hlate

/-- Nobody is above an element that has the largest figure. -/
theorem above_eq_zero {l : List α} {x : α} (h : ∀ y ∈ l, key y ≤ key x) : above key l x = 0 := by
  rw [above, List.countP_eq_zero]
  intro y hy
  rw [decide_eq_true_eq, not_lt]
  exact h y hy

theorem above_cons_of_lt {l : List α} {x y : α} (h : key x < key y) :
    above key (y :: l) x = above key l x + 1 :=
  List.countP_cons_of_pos (by simpa using h)

theorem above_cons_of_le {l : List α} {x y : α} (h : key y ≤ key x) :
    above key (y :: l) x = above key l x :=
  List.countP_cons_of_neg (by simpa using h)

/-- An element goes in right behind those above it. -/
theorem getElem?_orderedInsert {l : List α} (hl : Ranked key l) (x : α) :
    (l.orderedInsert (fun x y => key y ≤ key x) x)[above key l x]? = some x := by
  induction l with
  | nil => rfl
  | cons y ys ih =>
    have hys := List.pairwise_cons.mp hl
    by_cases hxy : key y ≤ key x
    · have hall : ∀ z ∈ y :: ys, key z ≤ key x := by
        intro z hz
        rcases List.mem_cons.mp hz with rfl | hz
        · exact hxy
        · exact (hys.1 z hz).trans hxy
      rw [above_eq_zero hall, List.orderedInsert_cons_of_le _ ys hxy]
      rfl
    · rw [above_cons_of_lt (not_le.mp hxy), List.orderedInsert_of_not_le _ ys hxy,
        List.getElem?_cons_succ]
      exact ih hys.2

/-- An element that comes first is arranged first among those it ties with. -/
theorem getElem?_rank_cons (x : α) (l : List α) :
    (rank key (x :: l))[above key (x :: l) x]? = some x := by
  have habove : above key (rank key l) x = above key l x := above_perm (rank_perm l) x
  rw [above_cons_of_le (le_refl (key x)), ← habove]
  exact getElem?_orderedInsert (ranked_rank l) x

/-- Arrange by the figure, with one of those that tie in front. -/
def rankLeading [DecidableEq α] (key : α → κ) (x : α) (l : List α) : List α :=
  rank key (if x ∈ l then x :: l.erase x else l)

section

variable [DecidableEq α]

theorem rankLeading_perm (x : α) (l : List α) : (rankLeading key x l).Perm l := by
  rw [rankLeading]
  split_ifs with hx
  · exact (rank_perm _).trans (List.perm_cons_erase hx).symm
  · exact rank_perm l

theorem ranked_rankLeading (x : α) (l : List α) : Ranked key (rankLeading key x l) := ranked_rank _

theorem getElem?_rankLeading {x : α} {l : List α} (hx : x ∈ l) :
    (rankLeading key x l)[above key l x]? = some x := by
  rw [rankLeading, if_pos hx, above_perm (List.perm_cons_erase hx)]
  exact getElem?_rank_cons x (l.erase x)

/-- With a tie among them, what is seen of the first few depends on which of
the two leads. -/
theorem untied_of_take_eq {β : Type*} {key' : β → κ} {f : α → β}
    (hf : ∀ x, key' (f x) = key x) {n : ℕ} {l : List α}
    (h : ∀ x y, ((rankLeading key x l).take n).map f = ((rankLeading key y l).take n).map f) :
    Untied key' n (l.map f) := by
  have hseen : ∀ x, above key' (l.map f) (f x) = above key l x := by
    intro x
    rw [above, above, List.countP_map]
    refine List.countP_congr fun y _ => ?_
    simp only [Function.comp_apply, hf]
  rintro _ hx _ hy hkey hne
  obtain ⟨x, hxl, rfl⟩ := List.mem_map.mp hx
  obtain ⟨y, hyl, rfl⟩ := List.mem_map.mp hy
  rw [hseen]
  by_contra hfew
  have habove : above key l y = above key l x := by
    rw [hf, hf] at hkey
    rw [above, above, hkey]
  have hlead : ∀ z ∈ l, above key l z < n →
      (((rankLeading key z l).take n).map f)[above key l z]? = some (f z) := by
    intro z hz hlt
    rw [List.getElem?_map, List.getElem?_take_of_lt hlt, getElem?_rankLeading hz]
    rfl
  have hx' := hlead x hxl (not_le.mp hfew)
  have hy' := hlead y hyl (habove ▸ not_le.mp hfew)
  rw [h x y, ← habove, hy'] at hx'
  exact hne (Option.some.inj hx').symm

end

theorem nodup_eraseDups {γ : Type*} [DecidableEq γ] (l : List γ) : l.eraseDups.Nodup := by
  induction hn : l.length using Nat.strong_induction_on generalizing l with
  | _ n ih =>
    cases l with
    | nil => exact List.nodup_nil
    | cons c cs =>
      rw [List.eraseDups_cons, List.nodup_cons, List.mem_eraseDups]
      constructor
      · intro hc
        simpa using (List.mem_filter.mp hc).2
      · refine ih _ ?_ _ rfl
        rw [← hn, List.length_cons]
        exact Nat.lt_succ_of_le (List.length_filter_le _ cs)

/-- A list is what its classes hold, whatever order these are gone through. -/
theorem perm_flatMap_filter {γ : Type*} [DecidableEq γ] (kind : α → γ) {order : List γ}
    (hnodup : order.Nodup) {l : List α} (hmem : ∀ x ∈ l, kind x ∈ order) :
    (order.flatMap fun c => l.filter (kind · = c)).Perm l := by
  induction order generalizing l with
  | nil =>
    rw [List.eq_nil_iff_forall_not_mem.mpr fun x hx => List.not_mem_nil (hmem x hx)]
    rfl
  | cons c cs ih =>
    obtain ⟨hc, hcs⟩ := List.nodup_cons.mp hnodup
    have hrest : (cs.flatMap fun d => l.filter (kind · = d)) =
        cs.flatMap fun d => (l.filter (kind · ≠ c)).filter (kind · = d) := by
      refine List.flatMap_congr fun d hd => ?_
      rw [List.filter_filter]
      refine List.filter_congr fun x _ => ?_
      have hne : kind x = d → kind x ≠ c := by
        rintro rfl rfl
        exact hc hd
      by_cases hx : kind x = d
      · simp [hx, hx ▸ hne hx]
      · simp [hx]
    have hmem' : ∀ x ∈ l.filter (kind · ≠ c), kind x ∈ cs := by
      intro x hx
      obtain ⟨hx, hne⟩ := List.mem_filter.mp hx
      exact (List.mem_cons.mp (hmem x hx)).resolve_left (by simpa using hne)
    rw [List.flatMap_cons, hrest]
    refine ((ih hcs hmem').append_left _).trans ?_
    have hparts := List.filter_append_perm (fun x => decide (kind x = c)) l
    simpa only [decide_not] using hparts

end Kitaza.TopRanked
