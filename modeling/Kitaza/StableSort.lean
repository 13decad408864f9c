import Mathlib.Data.List.Sort

/-!
# Sorting a list with one element more

Insertion sort is stable, so an element added to the input shows up at one
place of the output and moves nothing else.
-/

namespace Kitaza.StableSort

/-- Inserting an element into a sorted list that lacks one other element
of it, and into the list that has it. -/
theorem orderedInsert_insert {α : Type*} (r : α → α → Prop) [DecidableRel r] [IsTrans α r]
    (a b : α) (before after : List α) (hs : (before ++ a :: after).Pairwise r) :
    ∃ before' after', (before ++ after).orderedInsert r b = before' ++ after' ∧
      (before ++ a :: after).orderedInsert r b = before' ++ a :: after' := by
  induction before with
  | nil =>
    by_cases hab : r b a
    · refine ⟨[b], after, ?_, ?_⟩
      · have hle : ∀ x ∈ after, r b x := fun x hx =>
          IsTrans.trans b a x hab (List.rel_of_pairwise_cons hs hx)
        cases after with
        | nil => rfl
        | cons x xs =>
          rw [List.nil_append, List.orderedInsert_cons_of_le r xs (hle x List.mem_cons_self)]
          rfl
      · exact List.orderedInsert_cons_of_le r after hab
    · exact ⟨[], after.orderedInsert r b, rfl, List.orderedInsert_of_not_le r after hab⟩
  | cons c before ih =>
    by_cases hbc : r b c
    · refine ⟨b :: c :: before, after, ?_, ?_⟩
      · exact List.orderedInsert_cons_of_le r (before ++ after) hbc
      · exact List.orderedInsert_cons_of_le r (before ++ a :: after) hbc
    · obtain ⟨before', after', h, h'⟩ := ih (List.pairwise_cons.mp hs).2
      refine ⟨c :: before', after', ?_, ?_⟩
      · rw [List.cons_append, List.orderedInsert_of_not_le r _ hbc, h, List.cons_append]
      · rw [List.cons_append, List.orderedInsert_of_not_le r _ hbc, h', List.cons_append]

/-- Sorting a list with one element more inserts it into the sorted list. -/
theorem insertionSort_insert {α : Type*} (r : α → α → Prop) [DecidableRel r] [Std.Total r]
    [IsTrans α r] (a : α) (before after : List α) :
    ∃ before' after', (before ++ after).insertionSort r = before' ++ after' ∧
      (before ++ a :: after).insertionSort r = before' ++ a :: after' := by
  induction before with
  | nil =>
    refine ⟨(after.insertionSort r).takeWhile fun b => ¬ r a b,
      (after.insertionSort r).dropWhile fun b => ¬ r a b, ?_, ?_⟩
    · exact (List.takeWhile_append_dropWhile).symm
    · exact List.insertionSort_cons_eq_take_drop r a after
  | cons b before ih =>
    obtain ⟨before', after', h, h'⟩ := ih
    have hs := List.pairwise_insertionSort r (before ++ a :: after)
    rw [h'] at hs
    obtain ⟨before'', after'', h₁, h₂⟩ := orderedInsert_insert r a b before' after' hs
    refine ⟨before'', after'', ?_, ?_⟩
    · rw [List.cons_append, List.insertionSort_cons, h, h₁]
    · rw [List.cons_append, List.insertionSort_cons, h', h₂]

end Kitaza.StableSort
