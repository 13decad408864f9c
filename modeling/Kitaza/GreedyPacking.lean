import Mathlib.Data.List.Chain
import Mathlib.Data.List.Induction

/-!
# Packing items into rows

The items are taken in order. Each joins the row being filled if it fits
there, and starts the next row if not. The rows this gives are the only ones
that hold the items in order, fit, and could not have taken one item more.
-/

namespace Kitaza.GreedyPacking

variable {α : Type*}

/-- The next item joins the row being filled, or closes it. -/
def place (fits : List α → Bool) (state : List (List α) × List α) (item : α) :
    List (List α) × List α :=
  if state.2 = [] then (state.1, [item])
  else if fits (state.2 ++ [item]) then (state.1, state.2 ++ [item])
  else (state.1 ++ [state.2], [item])

/-- The rows, the one being filled included. -/
def close (state : List (List α) × List α) : List (List α) :=
  if state.2 = [] then state.1 else state.1 ++ [state.2]

/-- The rows into which the items go. -/
def pack (fits : List α → Bool) (items : List α) : List (List α) :=
  close (items.foldl (place fits) ([], []))

/-- A row could not have taken the first item of the next. -/
def Full (fits : List α → Bool) (row next : List α) : Prop :=
  ∀ item, next.head? = some item → fits (row ++ [item]) = false

/-- The rows hold the items, and none could have taken more. -/
structure Packed (fits : List α → Bool) (items : List α) (rows : List (List α)) : Prop where
  /-- The items are on the rows, in order. -/
  holds : rows.flatten = items
  /-- No row is empty. -/
  nonempty : ∀ row ∈ rows, row ≠ []
  /-- Every row fits. -/
  fit : ∀ row ∈ rows, fits row = true
  /-- Every row is full. -/
  full : rows.IsChain (Full fits)

section

variable {fits : List α → Bool} {items : List α} {rows : List (List α)}

theorem Packed.nil : Packed fits [] [] :=
  ⟨rfl, by simp, by simp, List.IsChain.nil⟩

/-- What has been packed so far: the row being filled is empty only at the
start. -/
structure Packing (fits : List α → Bool) (items : List α) (state : List (List α) × List α) :
    Prop where
  /-- The rows so far are packed. -/
  packed : Packed fits items (close state)
  /-- There is a row being filled once there is a row. -/
  started : state.2 = [] → state.1 = []

theorem Packing.nil : Packing fits [] ([], []) :=
  ⟨Packed.nil, fun _ => rfl⟩

/-- A step keeps the packing, given that an item fits by itself. -/
theorem Packing.place {state : List (List α) × List α} {item : α}
    (h : Packing fits items state) (hitem : fits [item] = true) :
    Packing fits (items ++ [item]) (place fits state item) := by
  obtain ⟨done, current⟩ := state
  obtain ⟨⟨hholds, hnonempty, hfit, hfull⟩, hstarted⟩ := h
  by_cases hcurrent : current = []
  · have hdone : done = [] := hstarted hcurrent
    rw [hcurrent, hdone] at hholds
    have hitems : items = [] := by simpa [close] using hholds.symm
    rw [GreedyPacking.place, if_pos hcurrent, hdone, hitems]
    exact ⟨⟨by simp [close], by simp [close], by simp [close, hitem], by simp [close]⟩, by simp⟩
  · rw [close, if_neg hcurrent] at hholds hnonempty hfit hfull
    rw [List.isChain_append] at hfull
    by_cases hjoin : fits (current ++ [item]) = true
    · rw [GreedyPacking.place, if_neg hcurrent, if_pos hjoin]
      refine ⟨⟨?_, ?_, ?_, ?_⟩, by simp⟩
      · rw [← hholds]
        simp [close]
      · intro row hrow
        rw [close, if_neg (by simp), List.mem_append, List.mem_singleton] at hrow
        cases hrow with
        | inl hrow => exact hnonempty row (List.mem_append_left _ hrow)
        | inr hrow => simp [hrow]
      · intro row hrow
        rw [close, if_neg (by simp), List.mem_append, List.mem_singleton] at hrow
        cases hrow with
        | inl hrow => exact hfit row (List.mem_append_left _ hrow)
        | inr hrow => rw [hrow, hjoin]
      · rw [close, if_neg (by simp), List.isChain_append]
        refine ⟨hfull.1, by simp, ?_⟩
        intro row hrow next hnext first hfirst
        -- the row being filled still begins with the same item
        have hsame : next.head? = current.head? := by
          rw [List.head?_cons, Option.mem_def, Option.some.injEq] at hnext
          rw [← hnext]
          cases current with
          | nil => exact absurd rfl hcurrent
          | cons c cs => rfl
        exact hfull.2.2 row hrow current rfl first (hsame ▸ hfirst)
    · rw [GreedyPacking.place, if_neg hcurrent, if_neg hjoin]
      refine ⟨⟨?_, ?_, ?_, ?_⟩, by simp⟩
      · rw [← hholds]
        simp [close]
      · intro row hrow
        rw [close, if_neg (by simp), List.mem_append, List.mem_singleton] at hrow
        cases hrow with
        | inl hrow => exact hnonempty row hrow
        | inr hrow => simp [hrow]
      · intro row hrow
        rw [close, if_neg (by simp), List.mem_append, List.mem_singleton] at hrow
        cases hrow with
        | inl hrow => exact hfit row hrow
        | inr hrow => rw [hrow, hitem]
      · rw [close, if_neg (by simp), List.isChain_append]
        refine ⟨List.isChain_append.mpr hfull, by simp, ?_⟩
        intro row hrow next hnext first hfirst
        simp only [List.getLast?_append, List.getLast?_singleton, Option.some_or,
          Option.mem_def, Option.some.injEq] at hrow
        simp only [List.head?_cons, Option.mem_def, Option.some.injEq] at hnext
        rw [← hnext, List.head?_cons, Option.some.injEq] at hfirst
        rw [← hrow, ← hfirst]
        exact Bool.eq_false_iff.mpr hjoin

/-- The rows of the packing are packed. -/
theorem pack_packed (hitems : ∀ item ∈ items, fits [item] = true) :
    Packed fits items (pack fits items) := by
  have h : Packing fits items (items.foldl (place fits) ([], [])) := by
    induction items using List.reverseRecOn with
    | nil => exact Packing.nil
    | append_singleton items item ih =>
      rw [List.foldl_concat]
      have hbefore := ih fun i hi => hitems i (List.mem_append_left _ hi)
      exact hbefore.place (hitems item (by simp))
  exact h.packed

/-- A row's items go on one row, provided that what begins a fitting row
fits. -/
theorem foldl_row {row : List α} (done : List (List α)) (hrow : row ≠ [])
    (hfit : ∀ init rest, row = init ++ rest → fits init = true) :
    row.foldl (place fits) (done, []) = (done, row) := by
  induction row using List.reverseRecOn with
  | nil => exact absurd rfl hrow
  | append_singleton row item ih =>
    rw [List.foldl_concat]
    by_cases hnil : row = []
    · rw [hnil, List.foldl_nil, place, if_pos rfl, List.nil_append]
    · rw [ih hnil fun init rest h => hfit init (rest ++ [item]) (by rw [h, List.append_assoc])]
      rw [place, if_neg hnil, if_pos (hfit _ [] (List.append_nil _).symm)]

/-- All rows but the last are packed too. -/
theorem Packed.init {row : List α} (h : Packed fits items (rows ++ [row])) :
    Packed fits rows.flatten rows :=
  ⟨rfl, fun r hr => h.nonempty r (List.mem_append_left _ hr),
    fun r hr => h.fit r (List.mem_append_left _ hr), (List.isChain_append.mp h.full).1⟩

/-- Packing the items of packed rows leaves the last of them being filled. -/
theorem Packed.foldl (h : Packed fits items rows)
    (hinit : ∀ init rest, fits (init ++ rest) = true → fits init = true) :
    items.foldl (place fits) ([], []) = (rows.dropLast, rows.getLast?.getD []) := by
  rw [← h.holds]
  induction rows using List.reverseRecOn generalizing items with
  | nil => rfl
  | append_singleton rows row ih =>
    have hrow := h.nonempty row (by simp)
    have hprefix : ∀ init rest, row = init ++ rest → fits init = true := by
      intro init rest heq
      apply hinit init rest
      rw [← heq]
      exact h.fit row (by simp)
    rw [List.flatten_append, List.foldl_append, List.flatten_singleton, List.dropLast_concat,
      List.getLast?_concat, Option.getD_some, ih h.init]
    by_cases hrows : rows = []
    · rw [hrows]
      exact foldl_row [] hrow hprefix
    · obtain ⟨first, rest, rfl⟩ := List.exists_cons_of_ne_nil hrow
      have hlast := List.getLast?_eq_some_getLast hrows
      have hne : rows.getLast hrows ≠ [] := h.nonempty _
        (List.mem_append_left _ (List.getLast_mem hrows))
      have hfull := (List.isChain_append.mp h.full).2.2 _ hlast (first :: rest) rfl first rfl
      -- the row before is closed by the first item of this one
      have hstep : place fits (rows.dropLast, rows.getLast hrows) first =
          place fits (rows, []) first := by
        rw [place, if_neg hne, if_neg (by simp [hfull]), place, if_pos rfl,
          List.dropLast_append_getLast hrows]
      rw [hlast, Option.getD_some, List.foldl_cons, hstep, ← List.foldl_cons]
      exact foldl_row rows hrow hprefix

/-- Any packed rows are those of the packing. -/
theorem Packed.eq_pack (h : Packed fits items rows)
    (hinit : ∀ init rest, fits (init ++ rest) = true → fits init = true) :
    rows = pack fits items := by
  rw [pack, h.foldl hinit]
  by_cases hrows : rows = []
  · rw [hrows]
    rfl
  · have hne : rows.getLast hrows ≠ [] := h.nonempty _ (List.getLast_mem hrows)
    rw [List.getLast?_eq_some_getLast hrows, Option.getD_some, close, if_neg hne]
    exact (List.dropLast_append_getLast hrows).symm

end

end Kitaza.GreedyPacking
