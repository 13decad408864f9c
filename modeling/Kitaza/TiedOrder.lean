import Mathlib.Data.List.Sort
import Mathlib.Data.List.Perm.Basic

/-!
# Permuting the ties of a sorted list

A stable sort of a permuted list differs from that of the list itself by swaps
of neighbours that tie. A fold over the sorted list ends up the same, up to an
equivalence of states, when every pair that ties commutes.
-/

namespace Kitaza.TiedOrder

variable {α : Type*}

/-- Swapping neighbours that are related. -/
inductive TiedPerm (R : α → α → Prop) : List α → List α → Prop
  | nil : TiedPerm R [] []
  | cons (a : α) {l l' : List α} (h : TiedPerm R l l') : TiedPerm R (a :: l) (a :: l')
  | swap {a b : α} (h : R a b) (l : List α) : TiedPerm R (a :: b :: l) (b :: a :: l)
  | trans {l l' l'' : List α} (h : TiedPerm R l l') (h' : TiedPerm R l' l'') : TiedPerm R l l''

namespace TiedPerm

variable {R : α → α → Prop}

theorem refl (l : List α) : TiedPerm R l l := by
  induction l with
  | nil => exact nil
  | cons a l ih => exact cons a ih

theorem perm {l l' : List α} (h : TiedPerm R l l') : l.Perm l' := by
  induction h with
  | nil => exact List.Perm.nil
  | cons a _ ih => exact ih.cons a
  | swap _ l => exact List.Perm.swap _ _ l
  | trans _ _ ih ih' => exact ih.trans ih'

section Fold

variable {S : Type*} {f : S → α → S} {E : S → S → Prop} {Q : List α → S → Prop}

/-- A fold over neighbours swapped where they commute ends up the same: `E` is
when states are the same, and `Q` what is known of a state and the elements
that are still to come. -/
theorem foldl (hrefl : ∀ s, E s s) (htrans : ∀ s t u, E s t → E t u → E s u)
    (hnext : ∀ a l s, Q (a :: l) s → Q l (f s a))
    (hsame : ∀ l l' s t, l.Perm l' → E s t → Q l s → Q l' t)
    (hstep : ∀ a l s t, Q (a :: l) s → E s t → E (f s a) (f t a))
    (hswap : ∀ a b l s, R a b → Q (a :: b :: l) s → E (f (f s a) b) (f (f s b) a))
    {l l' : List α} (h : TiedPerm R l l') {s t : S} (hst : E s t) (hs : Q l s) :
    E (l.foldl f s) (l'.foldl f t) := by
  -- the same list, from states that are the same
  have hrun : ∀ (l : List α) (s t : S), E s t → Q l s → E (l.foldl f s) (l.foldl f t) := by
    intro l
    induction l with
    | nil => exact fun s t hst _ => hst
    | cons a l ih => exact fun s t hst hs => ih _ _ (hstep a l s t hs hst) (hnext a l s hs)
  induction h generalizing s t with
  | nil => exact hst
  | cons a _ ih => exact ih (hstep a _ s t hs hst) (hnext a _ s hs)
  | @swap a b hab l =>
    have hafter := hnext b l _ (hnext a (b :: l) s hs)
    have hba := hsame _ _ s s (List.Perm.swap b a l) (hrefl s) hs
    have hcommute := hswap a b l s hab hs
    have hboth : E (f (f s b) a) (f (f t b) a) :=
      hstep a l _ _ (hnext b (a :: l) s hba) (hstep b (a :: l) s t hba hst)
    exact hrun l _ _ (htrans _ _ _ hcommute hboth) hafter
  | trans hl _ ih ih' =>
    exact htrans _ _ _ (ih hst hs) (ih' (hrefl t) (hsame _ _ s t hl.perm hst hs))

end Fold

section Sorting

variable {r : α → α → Prop} [DecidableRel r] [IsTrans α r]

/-- Inserting one element does not separate neighbours that tie. -/
theorem orderedInsert (hR : ∀ a b, R a b → r a b ∧ r b a) (c : α) {l l' : List α}
    (h : TiedPerm R l l') : TiedPerm R (l.orderedInsert r c) (l'.orderedInsert r c) := by
  induction h with
  | nil => exact refl _
  | @cons a l l' h ih =>
    by_cases hca : r c a
    · rw [List.orderedInsert_cons_of_le r l hca, List.orderedInsert_cons_of_le r l' hca]
      exact cons c (cons a h)
    · rw [List.orderedInsert_of_not_le r l hca, List.orderedInsert_of_not_le r l' hca]
      exact cons a ih
  | @swap a b hab l =>
    obtain ⟨hle, hge⟩ := hR a b hab
    by_cases hca : r c a
    · have hcb : r c b := IsTrans.trans c a b hca hle
      rw [List.orderedInsert_cons_of_le r _ hca, List.orderedInsert_cons_of_le r _ hcb]
      exact cons c (swap hab l)
    · have hcb : ¬ r c b := fun hcb => hca (IsTrans.trans c b a hcb hge)
      rw [List.orderedInsert_of_not_le r _ hca, List.orderedInsert_of_not_le r _ hcb,
        List.orderedInsert_of_not_le r _ hcb, List.orderedInsert_of_not_le r _ hca]
      exact swap hab _
  | trans _ _ ih ih' => exact trans ih ih'

/-- Inserting the same elements into lists that differ by swapped ties. -/
theorem foldr_orderedInsert_congr (hR : ∀ a b, R a b → r a b ∧ r b a) (l : List α)
    {sorted sorted' : List α} (h : TiedPerm R sorted sorted') :
    TiedPerm R (l.foldr (List.orderedInsert r) sorted)
      (l.foldr (List.orderedInsert r) sorted') := by
  induction l with
  | nil => exact h
  | cons a l ih => exact orderedInsert hR a ih

variable [Std.Total r]

/-- Two elements can be inserted in either order, up to a swap where they tie. -/
theorem orderedInsert_comm {a b : α} (hab : r a b → r b a → R a b) (l : List α) :
    TiedPerm R ((l.orderedInsert r b).orderedInsert r a)
      ((l.orderedInsert r a).orderedInsert r b) := by
  -- where both come before the rest of the list
  have hfirst : ∀ l : List α, (l.orderedInsert r a = a :: l) → (l.orderedInsert r b = b :: l) →
      TiedPerm R ((b :: l).orderedInsert r a) ((a :: l).orderedInsert r b) := by
    intro l hla hlb
    by_cases hle : r a b
    · by_cases hge : r b a
      · rw [List.orderedInsert_cons_of_le r l hle, List.orderedInsert_cons_of_le r l hge]
        exact swap (hab hle hge) l
      · rw [List.orderedInsert_cons_of_le r l hle, List.orderedInsert_of_not_le r l hge, hlb]
        exact refl _
    · have hge : r b a := (Std.Total.total a b).resolve_left hle
      rw [List.orderedInsert_of_not_le r l hle, List.orderedInsert_cons_of_le r l hge, hla]
      exact refl _
  induction l with
  | nil => exact hfirst [] rfl rfl
  | cons c l ih =>
    by_cases hac : r a c
    · have hla := List.orderedInsert_cons_of_le r l hac
      by_cases hbc : r b c
      · have hlb := List.orderedInsert_cons_of_le r l hbc
        rw [hla, hlb]
        exact hfirst (c :: l) hla hlb
      · have hba : ¬ r b a := fun hba => hbc (IsTrans.trans b a c hba hac)
        rw [hla, List.orderedInsert_of_not_le r l hbc, List.orderedInsert_cons_of_le r _ hac,
          List.orderedInsert_of_not_le r _ hba, List.orderedInsert_of_not_le r l hbc]
        exact refl _
    · by_cases hbc : r b c
      · have hab' : ¬ r a b := fun hab' => hac (IsTrans.trans a b c hab' hbc)
        rw [List.orderedInsert_cons_of_le r l hbc, List.orderedInsert_of_not_le r l hac,
          List.orderedInsert_of_not_le r _ hab', List.orderedInsert_of_not_le r l hac,
          List.orderedInsert_cons_of_le r _ hbc]
        exact refl _
      · rw [List.orderedInsert_of_not_le r l hac, List.orderedInsert_of_not_le r l hbc,
          List.orderedInsert_of_not_le r _ hac, List.orderedInsert_of_not_le r _ hbc]
        exact cons c ih

/-- Inserting the elements of a list in another order swaps ties. -/
theorem foldr_orderedInsert (hR : ∀ a b, R a b → r a b ∧ r b a) {l l' : List α} (h : l.Perm l')
    (hties : ∀ a ∈ l, ∀ b ∈ l, a ≠ b → r a b → r b a → R a b) (sorted : List α) :
    TiedPerm R (l.foldr (List.orderedInsert r) sorted)
      (l'.foldr (List.orderedInsert r) sorted) := by
  induction h with
  | nil => exact refl _
  | cons a _ ih =>
    exact orderedInsert hR a (ih fun x hx y hy =>
      hties x (List.mem_cons_of_mem a hx) y (List.mem_cons_of_mem a hy))
  | swap a b l =>
    by_cases he : b = a
    · rw [he]
      exact refl _
    · exact orderedInsert_comm (hties b (by simp) a (by simp) he) _
  | trans hl _ ih ih' =>
    exact trans (ih hties) (ih' fun x hx y hy => hties x (hl.mem_iff.mpr hx) y (hl.mem_iff.mpr hy))

end Sorting

end TiedPerm

end Kitaza.TiedOrder
