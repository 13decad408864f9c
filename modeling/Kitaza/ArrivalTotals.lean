import Mathlib.Algebra.BigOperators.Group.List.Basic
import Mathlib.Algebra.Group.Basic
import Mathlib.Data.List.Induction
import Mathlib.Tactic.Abel

/-!
# Totals under counts that arrive out of order

Events change a running total by an amount or set it to a counted value.
Replayed in the order they happened they leave one total; applied in the
order they arrive, each possibly more than once, they leave another. The
two agree exactly when what was misplaced around the last counts cancels.
-/

namespace Kitaza.ArrivalTotals

variable {E Q : Type*} [AddCommGroup Q]

/-- What an event does to the total. -/
inductive Effect (Q : Type*) where
  /-- Change it by an amount. -/
  | change (amount : Q)
  /-- Set it to a counted value. -/
  | setTo (counted : Q)
  deriving DecidableEq, Repr

namespace Effect

/-- The total after the effect. -/
def apply (x : Q) : Effect Q → Q
  | change amount => x + amount
  | setTo counted => counted

/-- The amount of a change. -/
def amount : Effect Q → Q
  | change amount => amount
  | setTo _ => 0

/-- The value of a count. -/
def counted : Effect Q → Q
  | change _ => 0
  | setTo counted => counted

/-- Whether the effect is a count. -/
def isCount : Effect Q → Bool
  | change _ => false
  | setTo _ => true

theorem apply_of_isCount {e : Effect Q} (x : Q) (h : e.isCount = true) : e.apply x = e.counted := by
  cases e with
  | change amount => cases h
  | setTo counted => rfl

theorem apply_of_not_isCount {e : Effect Q} (x : Q) (h : e.isCount = false) :
    e.apply x = x + e.amount := by
  cases e with
  | change amount => rfl
  | setTo counted => cases h

theorem amount_of_isCount {e : Effect Q} (h : e.isCount = true) : e.amount = 0 := by
  cases e with
  | change amount => cases h
  | setTo counted => rfl

end Effect

variable (effect : E → Effect Q)

/-- The total after the events in the order they happened. -/
def inTimeOrder (start : Q) (events : List E) : Q :=
  events.foldl (fun x e => (effect e).apply x) start

/-- The amounts of the events that satisfy a predicate. -/
def amounts (events : List E) (keep : E → Bool) : Q :=
  (events.map fun e => if keep e then (effect e).amount else 0).sum

variable [DecidableEq E]

/-- The total after the events in the order they arrive. An arrival comes with
what it adds if its event was seen before. -/
def inArrivalOrder : List E → Q → List (E × Q) → Q
  | _, x, [] => x
  | seen, x, (e, again) :: rest =>
    inArrivalOrder (seen ++ [e]) (if e ∈ seen then x + again else (effect e).apply x) rest

/-- What the copies among the arrivals add. -/
def drift : List E → List (E × Q) → Q
  | _, [] => 0
  | seen, (e, again) :: rest => (if e ∈ seen then again else 0) + drift (seen ++ [e]) rest

/-- What was misplaced cancels. Without a count, the copies add nothing.
Otherwise let `T` be the count that happened last and `L` the one whose
first copy arrived last: the value of `L`, the changes from before `T` that
arrived after `L` and what copies added after `L` make up the value of `T`
and the changes from after `T` that arrived before `L`. -/
def Balanced (events : List E) (arrivals : List (E × Q)) : Prop :=
  ((∀ e ∈ events, (effect e).isCount = false) → drift [] arrivals = 0) ∧
    ∀ earlier T later before L after, events = earlier ++ T :: later →
      (effect T).isCount = true → (∀ e ∈ later, (effect e).isCount = false) →
      arrivals = before ++ L :: after → (effect L.1).isCount = true →
      L.1 ∉ before.map Prod.fst →
      (∀ a ∈ after, (effect a.1).isCount = true → a.1 ∈ (before ++ [L]).map Prod.fst) →
      (effect L.1).counted + amounts effect earlier (fun e => decide (e ∉ before.map Prod.fst)) +
          drift ((before ++ [L]).map Prod.fst) after =
        (effect T).counted + amounts effect later (fun e => decide (e ∈ before.map Prod.fst))

section

omit [DecidableEq E]

theorem amounts_append (a b : List E) (keep : E → Bool) :
    amounts effect (a ++ b) keep = amounts effect a keep + amounts effect b keep := by
  rw [amounts, List.map_append, List.sum_append]
  rfl

theorem amounts_cons (e : E) (rest : List E) (keep : E → Bool) :
    amounts effect (e :: rest) keep =
      (if keep e then (effect e).amount else 0) + amounts effect rest keep := by
  rw [amounts, List.map_cons, List.sum_cons]
  rfl

theorem amounts_congr {events : List E} {keep keep' : E → Bool}
    (h : ∀ e ∈ events, keep e = keep' e) : amounts effect events keep = amounts effect events keep' := by
  unfold amounts
  congr 1
  apply List.map_congr_left
  intro e he
  rw [h e he]

/-- Splitting the kept events splits their amounts. -/
theorem amounts_split (events : List E) (keep also : E → Bool) :
    amounts effect events keep = amounts effect events (fun e => keep e && also e) +
      amounts effect events fun e => keep e && !also e := by
  induction events with
  | nil => simp [amounts]
  | cons e rest ih =>
    rw [amounts_cons, amounts_cons, amounts_cons, ih]
    cases keep e <;> cases also e <;> simp <;> abel

/-- Events that keep nothing amount to nothing. -/
theorem amounts_eq_zero {events : List E} {keep : E → Bool}
    (h : ∀ e ∈ events, keep e = true → (effect e).amount = 0) : amounts effect events keep = 0 := by
  apply List.sum_eq_zero
  intro q hq
  obtain ⟨e, he, rfl⟩ := List.mem_map.mp hq
  split_ifs with hk
  · exact h e he hk
  · rfl

theorem inTimeOrder_append (start : Q) (a b : List E) :
    inTimeOrder effect start (a ++ b) = inTimeOrder effect (inTimeOrder effect start a) b :=
  List.foldl_append

/-- Without counts the total moves by the amounts. -/
theorem inTimeOrder_of_no_count (start : Q) {events : List E}
    (h : ∀ e ∈ events, (effect e).isCount = false) :
    inTimeOrder effect start events = start + amounts effect events fun _ => true := by
  induction events generalizing start with
  | nil => simp [inTimeOrder, amounts]
  | cons e rest ih =>
    have hrest := ih ((effect e).apply start) fun x hx => h x (List.mem_cons_of_mem _ hx)
    rw [amounts_cons, if_pos rfl]
    change inTimeOrder effect ((effect e).apply start) rest = _
    rw [hrest, Effect.apply_of_not_isCount _ (h e List.mem_cons_self), add_assoc]

/-- After the last count only what follows it matters. -/
theorem inTimeOrder_of_last_count (start : Q) {earlier later : List E} {T : E}
    (hT : (effect T).isCount = true) (h : ∀ e ∈ later, (effect e).isCount = false) :
    inTimeOrder effect start (earlier ++ T :: later) =
      (effect T).counted + amounts effect later fun _ => true := by
  rw [inTimeOrder_append]
  change inTimeOrder effect ((effect T).apply _) later = _
  rw [inTimeOrder_of_no_count effect _ h, Effect.apply_of_isCount _ hT]

omit [AddCommGroup Q] in
/-- Some event is a count exactly when there is a last one. -/
theorem exists_last_count {events : List E} (h : ∃ e ∈ events, (effect e).isCount = true) :
    ∃ earlier T later, events = earlier ++ T :: later ∧ (effect T).isCount = true ∧
      ∀ e ∈ later, (effect e).isCount = false := by
  induction events using List.reverseRecOn with
  | nil =>
    obtain ⟨e, he, _⟩ := h
    cases he
  | append_singleton events last ih =>
    by_cases hlast : (effect last).isCount = true
    · exact ⟨events, last, [], rfl, hlast, fun e he => absurd he List.not_mem_nil⟩
    · rw [Bool.not_eq_true] at hlast
      obtain ⟨e, he, hcount⟩ := h
      have he' : e ∈ events := by
        rcases List.mem_append.mp he with he | he
        · exact he
        · rw [List.mem_singleton.mp he, hlast] at hcount
          cases hcount
      obtain ⟨earlier, T, later, rfl, hT, hlater⟩ := ih ⟨e, he', hcount⟩
      refine ⟨earlier, T, later ++ [last], by simp, hT, ?_⟩
      intro x hx
      rcases List.mem_append.mp hx with hx | hx
      · exact hlater x hx
      · rw [List.mem_singleton.mp hx, hlast]

end

/-- One event among distinct ones. -/
theorem amounts_single {events : List E} (hn : events.Nodup) {e : E} (he : e ∈ events) :
    amounts effect events (fun x => decide (x = e)) = (effect e).amount := by
  induction events with
  | nil => cases he
  | cons head rest ih =>
    obtain ⟨hhead, hrest⟩ := List.nodup_cons.mp hn
    rw [amounts_cons]
    by_cases h : head = e
    · subst h
      rw [amounts_eq_zero effect]
      · simp
      · intro x hx hk
        rw [decide_eq_true_iff] at hk
        exact absurd (hk ▸ hx) hhead
    · rcases List.mem_cons.mp he with he | he
      · exact absurd he.symm h
      · rw [ih hrest he]
        simp [h]

/-- Taking one kept event out of the distinct ones. -/
theorem amounts_erase {events : List E} (hn : events.Nodup) {e : E} (he : e ∈ events)
    {keep keep' : E → Bool} (hk : keep e = true) (h : ∀ x ∈ events, keep' x = (keep x && x ≠ e)) :
    amounts effect events keep = (effect e).amount + amounts effect events keep' := by
  rw [amounts_split effect events keep fun x => decide (x = e), ← amounts_single effect hn he]
  congr 1
  · apply amounts_congr
    intro x _
    by_cases hx : x = e
    · subst hx
      simp [hk]
    · simp [hx]
  · apply amounts_congr
    intro x hx
    rw [h x hx]
    simp

theorem inArrivalOrder_append (seen : List E) (x : Q) (a b : List (E × Q)) :
    inArrivalOrder effect seen x (a ++ b) =
      inArrivalOrder effect (seen ++ a.map Prod.fst) (inArrivalOrder effect seen x a) b := by
  induction a generalizing seen x with
  | nil => rw [List.nil_append, List.map_nil, List.append_nil, inArrivalOrder]
  | cons e rest ih =>
    obtain ⟨e, again⟩ := e
    rw [List.cons_append, inArrivalOrder, ih, inArrivalOrder, List.append_assoc]
    rfl

/-- Without a new count the arrivals add the amounts of the new events and
what the copies add. -/
theorem inArrivalOrder_of_no_new_count {events : List E} (hn : events.Nodup) {seen : List E} {x : Q}
    {arrivals : List (E × Q)} (hsub : ∀ a ∈ arrivals, a.1 ∈ events)
    (h : ∀ a ∈ arrivals, (effect a.1).isCount = true → a.1 ∈ seen) :
    inArrivalOrder effect seen x arrivals =
      x + amounts effect events (fun e => decide (e ∉ seen ∧ e ∈ arrivals.map Prod.fst)) +
        drift seen arrivals := by
  induction arrivals generalizing seen x with
  | nil => simp [inArrivalOrder, drift, amounts]
  | cons head rest ih =>
    obtain ⟨e, again⟩ := head
    have hrest := @ih (seen ++ [e]) (if e ∈ seen then x + again else (effect e).apply x)
      (fun y hy => hsub y (List.mem_cons_of_mem _ hy))
      (fun y hy hc => List.mem_append_left _ (h y (List.mem_cons_of_mem _ hy) hc))
    rw [inArrivalOrder, hrest, drift, List.map_cons]
    by_cases hseen : e ∈ seen
    · have hsame : amounts effect events
            (fun y => decide (y ∉ seen ++ [e] ∧ y ∈ rest.map Prod.fst)) =
          amounts effect events fun y => decide (y ∉ seen ∧ y ∈ e :: rest.map Prod.fst) := by
        apply amounts_congr
        intro y _
        rw [decide_eq_decide, List.mem_append, List.mem_singleton, List.mem_cons]
        constructor
        · exact fun hy => ⟨fun hs => hy.1 (Or.inl hs), Or.inr hy.2⟩
        · rintro ⟨hy, rfl | hr⟩
          · exact absurd hseen hy
          · exact ⟨fun hs => hs.elim hy fun he => hy (he ▸ hseen), hr⟩
      rw [if_pos hseen, if_pos hseen, hsame]
      abel
    · have hnew : (effect e).isCount = false := by
        rw [← Bool.not_eq_true]
        exact fun hc => hseen (h (e, again) List.mem_cons_self hc)
      have herase : amounts effect events
            (fun y => decide (y ∉ seen ∧ y ∈ e :: rest.map Prod.fst)) =
          (effect e).amount + amounts effect events
            fun y => decide (y ∉ seen ++ [e] ∧ y ∈ rest.map Prod.fst) := by
        apply amounts_erase effect hn (hsub (e, again) List.mem_cons_self)
        · simp [hseen]
        · intro y _
          rw [Bool.eq_iff_iff]
          simp only [decide_eq_true_eq, Bool.and_eq_true, List.mem_append, List.mem_cons, ne_eq,
            not_or]
          tauto
      rw [if_neg hseen, if_neg hseen, herase, Effect.apply_of_not_isCount _ hnew, zero_add]
      abel

omit [AddCommGroup Q] in
/-- A list of arrivals with a count has one whose first copy comes last. -/
theorem exists_last_new_count {arrivals : List (E × Q)}
    (h : ∃ a ∈ arrivals, (effect a.1).isCount = true) :
    ∃ before L after, arrivals = before ++ L :: after ∧ (effect L.1).isCount = true ∧
      L.1 ∉ before.map Prod.fst ∧
      ∀ a ∈ after, (effect a.1).isCount = true → a.1 ∈ (before ++ [L]).map Prod.fst := by
  induction arrivals using List.reverseRecOn with
  | nil =>
    obtain ⟨e, he, _⟩ := h
    cases he
  | append_singleton arrivals last ih =>
    by_cases hnew : (effect last.1).isCount = true ∧ last.1 ∉ arrivals.map Prod.fst
    · exact ⟨arrivals, last, [], rfl, hnew.1, hnew.2, fun e he => absurd he List.not_mem_nil⟩
    · have hold : (effect last.1).isCount = true → last.1 ∈ arrivals.map Prod.fst := by
        intro hc
        by_contra hn
        exact hnew ⟨hc, hn⟩
      obtain ⟨a, ha, hcount⟩ := h
      obtain ⟨a', ha', hcount'⟩ : ∃ a' ∈ arrivals, (effect a'.1).isCount = true := by
        rcases List.mem_append.mp ha with ha | ha
        · exact ⟨a, ha, hcount⟩
        · rw [List.mem_singleton.mp ha] at hcount
          obtain ⟨a', ha', he⟩ := List.mem_map.mp (hold hcount)
          exact ⟨a', ha', he ▸ hcount⟩
      obtain ⟨before, L, after, rfl, hL, hfresh, hafter⟩ := ih ⟨a', ha', hcount'⟩
      refine ⟨before, L, after ++ [last], by simp, hL, hfresh, ?_⟩
      intro x hx hc
      rcases List.mem_append.mp hx with hx | hx
      · exact hafter x hx hc
      · rw [List.mem_singleton.mp hx] at hc ⊢
        obtain ⟨y, hy, he⟩ := List.mem_map.mp (hold hc)
        rw [← he] at hc ⊢
        rcases List.mem_append.mp hy with hb | hb
        · exact List.mem_map_of_mem (List.mem_append_left _ hb)
        · rcases List.mem_cons.mp hb with rfl | hb
          · simp
          · exact hafter y hb hc

/-- After the count whose first copy arrived last, every event that had not
arrived before it counts, and so do the copies. -/
theorem inArrivalOrder_of_last_count {events : List E} (hn : events.Nodup) (start : Q)
    {before after : List (E × Q)} {L : E × Q} (hsub : ∀ a ∈ before ++ L :: after, a.1 ∈ events)
    (hall : ∀ e ∈ events, e ∈ (before ++ L :: after).map Prod.fst)
    (hL : (effect L.1).isCount = true) (hnew : L.1 ∉ before.map Prod.fst)
    (h : ∀ a ∈ after, (effect a.1).isCount = true → a.1 ∈ (before ++ [L]).map Prod.fst) :
    inArrivalOrder effect [] start (before ++ L :: after) =
      (effect L.1).counted + amounts effect events (fun e => decide (e ∉ before.map Prod.fst)) +
        drift ((before ++ [L]).map Prod.fst) after := by
  obtain ⟨L, again⟩ := L
  rw [List.map_append, List.map_singleton] at h ⊢
  rw [inArrivalOrder_append, List.nil_append, inArrivalOrder, if_neg hnew,
    Effect.apply_of_isCount _ hL,
    inArrivalOrder_of_no_new_count effect hn
      (fun a ha => hsub a (List.mem_append_right _ (List.mem_cons_of_mem _ ha))) h]
  congr 2
  -- the count itself has no amount
  have herase : amounts effect events (fun e => decide (e ∉ before.map Prod.fst)) =
      (effect L).amount + amounts effect events fun e =>
        decide (e ∉ before.map Prod.fst ++ [L] ∧ e ∈ after.map Prod.fst) := by
    apply amounts_erase effect hn (hsub (L, again) (by simp))
    · exact decide_eq_true hnew
    · intro e he
      have hmem := hall e he
      rw [Bool.eq_iff_iff]
      rw [List.map_append, List.map_cons, List.mem_append, List.mem_cons] at hmem
      simp only [decide_eq_true_eq, Bool.and_eq_true, List.mem_append, List.mem_singleton, ne_eq,
        not_or]
      tauto
  rw [herase, Effect.amount_of_isCount hL, zero_add]

/-- The two totals agree exactly when what was misplaced cancels. -/
theorem inArrivalOrder_eq_inTimeOrder_iff {events : List E} {arrivals : List (E × Q)}
    (hn : events.Nodup) (start : Q) (hsub : ∀ a ∈ arrivals, a.1 ∈ events)
    (hall : ∀ e ∈ events, e ∈ arrivals.map Prod.fst) :
    inArrivalOrder effect [] start arrivals = inTimeOrder effect start events ↔
      Balanced effect events arrivals := by
  by_cases hcount : ∃ e ∈ events, (effect e).isCount = true
  · -- both totals start afresh from their last count
    have hsplit : ∀ earlier T later before L after, events = earlier ++ T :: later →
        (effect T).isCount = true → (∀ e ∈ later, (effect e).isCount = false) →
        arrivals = before ++ L :: after → (effect L.1).isCount = true →
        L.1 ∉ before.map Prod.fst →
        (∀ a ∈ after, (effect a.1).isCount = true → a.1 ∈ (before ++ [L]).map Prod.fst) →
        (inArrivalOrder effect [] start arrivals = inTimeOrder effect start events ↔
          (effect L.1).counted +
              amounts effect earlier (fun e => decide (e ∉ before.map Prod.fst)) +
              drift ((before ++ [L]).map Prod.fst) after =
            (effect T).counted +
              amounts effect later fun e => decide (e ∈ before.map Prod.fst)) := by
      rintro earlier T later before L after rfl hT hlater rfl hL hnew hafter
      rw [inArrivalOrder_of_last_count effect hn start hsub hall hL hnew hafter,
        inTimeOrder_of_last_count effect start hT hlater, amounts_append, amounts_cons,
        Effect.amount_of_isCount hT, ite_self, zero_add,
        amounts_split effect later (fun _ => true) fun e => decide (e ∈ before.map Prod.fst)]
      have hlate : amounts effect later (fun e => true && !decide (e ∈ before.map Prod.fst)) =
          amounts effect later fun e => decide (e ∉ before.map Prod.fst) :=
        amounts_congr effect fun e _ => by simp
      have hearly : amounts effect later (fun e => true && decide (e ∈ before.map Prod.fst)) =
          amounts effect later fun e => decide (e ∈ before.map Prod.fst) :=
        amounts_congr effect fun e _ => by simp
      rw [hlate, hearly]
      constructor
      · intro h
        rw [← sub_eq_zero] at h ⊢
        rw [← h]
        abel
      · intro h
        rw [← sub_eq_zero] at h ⊢
        rw [← h]
        abel
    obtain ⟨earlier, T, later, hevents, hT, hlater⟩ := exists_last_count effect hcount
    obtain ⟨c, hc, hcc⟩ := hcount
    obtain ⟨a, ha, rfl⟩ := List.mem_map.mp (hall c hc)
    obtain ⟨before, L, after, harrivals, hL, hnew, hafter⟩ :=
      exists_last_new_count effect ⟨a, ha, hcc⟩
    constructor
    · intro h
      refine ⟨fun hnone => absurd hcc (by simp [hnone a.1 hc]), ?_⟩
      intro earlier T later before L after h₁ h₂ h₃ h₄ h₅ h₆ h₇
      exact (hsplit earlier T later before L after h₁ h₂ h₃ h₄ h₅ h₆ h₇).mp h
    · intro h
      exact (hsplit earlier T later before L after hevents hT hlater harrivals hL hnew hafter).mpr
        (h.2 earlier T later before L after hevents hT hlater harrivals hL hnew hafter)
  · have hnone : ∀ e ∈ events, (effect e).isCount = false := by
      intro e he
      rw [← Bool.not_eq_true]
      exact fun hc => hcount ⟨e, he, hc⟩
    have hall' : amounts effect events
          (fun e => decide (e ∉ ([] : List E) ∧ e ∈ arrivals.map Prod.fst)) =
        amounts effect events fun _ => true :=
      amounts_congr effect fun e he => decide_eq_true ⟨List.not_mem_nil, hall e he⟩
    rw [inArrivalOrder_of_no_new_count effect hn hsub
        (fun a ha hc => absurd hc (by simp [hnone a.1 (hsub a ha)])),
      inTimeOrder_of_no_count effect start hnone, hall', add_eq_left]
    constructor
    · intro h
      refine ⟨fun _ => h, ?_⟩
      rintro earlier T later before L after rfl hT
      rw [hnone T (by simp)] at hT
      cases hT
    · exact fun h => h.1 hnone

end Kitaza.ArrivalTotals
