import Mathlib.Algebra.Ring.Nat
import Mathlib.Data.List.Basic
import Mathlib.Data.List.Infix

/-!
# A channel that drops what is read too late

Everything sent is numbered. A channel keeps the last few messages for every
receiver, and a receiver that has fallen further behind is told how many it
missed and goes on with the oldest one kept. Whatever way the reads fall
between the sends, what a receiver was given accounts for every message since
it subscribed.
-/

namespace Kitaza.BroadcastChannel

variable {α : Type*}

/-- What one read gives a receiver. -/
inductive Received (α : Type*) where
  /-- The next message. -/
  | value (a : α)
  /-- So many messages were dropped before they were read. -/
  | lagged (missed : ℕ)
  deriving DecidableEq, Repr

/-- How many messages a read disposes of. -/
def Received.span : Received α → ℕ
  | .value _ => 1
  | .lagged missed => missed

/-- One read at a position: what it gives and the position after it, or
nothing while there is nothing to read. -/
def recv (capacity : ℕ) (sent : List α) (next : ℕ) : Option (Received α × ℕ) :=
  if next + capacity < sent.length then
    some (.lagged (sent.length - capacity - next), sent.length - capacity)
  else sent[next]?.map fun a => (.value a, next + 1)

/-- What was received accounts for the messages from one position to another. -/
inductive Accounts (sent : List α) : ℕ → List (Received α) → ℕ → Prop
  /-- Nothing was read. -/
  | nil (next : ℕ) : Accounts sent next [] next
  /-- A message was read. -/
  | value {start next : ℕ} {a : α} {rest : List (Received α)} (h : sent[start]? = some a)
      (tail : Accounts sent (start + 1) rest next) : Accounts sent start (.value a :: rest) next
  /-- Messages were missed, at least one. -/
  | lagged {start next missed : ℕ} {rest : List (Received α)} (h : 0 < missed)
      (tail : Accounts sent (start + missed) rest next) :
      Accounts sent start (.lagged missed :: rest) next

/-- What was sent stays where it is. -/
theorem getElem?_extend {sent longer : List α} (hp : sent <+: longer) {i : ℕ} {a : α}
    (h : sent[i]? = some a) : longer[i]? = some a := by
  obtain ⟨rest, rfl⟩ := hp
  obtain ⟨hi, _⟩ := List.getElem?_eq_some_iff.mp h
  exact (List.getElem?_append_left hi).trans h

namespace Accounts

variable {sent : List α} {start mid next : ℕ} {received rest : List (Received α)}

/-- The positions are as far apart as the reads reach. -/
theorem next_eq (h : Accounts sent start received next) :
    next = start + (received.map Received.span).sum := by
  induction h with
  | nil => rfl
  | value _ _ ih =>
    rw [ih, List.map_cons, List.sum_cons, Received.span]
    omega
  | lagged _ _ ih =>
    rw [ih, List.map_cons, List.sum_cons, Received.span]
    omega

/-- Reads after reads. -/
theorem append (h : Accounts sent start received mid) (h' : Accounts sent mid rest next) :
    Accounts sent start (received ++ rest) next := by
  induction h with
  | nil => exact h'
  | value ha _ ih => exact .value ha (ih h')
  | lagged hpos _ ih => exact .lagged hpos (ih h')

/-- Reads apart from the reads before them. -/
theorem of_append (h : Accounts sent start (received ++ rest) next) :
    ∃ mid, Accounts sent start received mid ∧ Accounts sent mid rest next := by
  induction received generalizing start with
  | nil => exact ⟨start, .nil start, h⟩
  | cons item received ih =>
    cases h with
    | value ha tail =>
      obtain ⟨mid, hfirst, hrest⟩ := ih tail
      exact ⟨mid, .value ha hfirst, hrest⟩
    | lagged hpos tail =>
      obtain ⟨mid, hfirst, hrest⟩ := ih tail
      exact ⟨mid, .lagged hpos hfirst, hrest⟩

/-- The reads after some that reached a position account for what lies past
that position. -/
theorem drop (h : Accounts sent start received mid)
    (h' : Accounts sent start (received ++ rest) next) : Accounts sent mid rest next := by
  obtain ⟨mid', hfirst, hrest⟩ := h'.of_append
  have heq : mid' = mid := hfirst.next_eq.trans h.next_eq.symm
  rwa [heq] at hrest

/-- More may be sent meanwhile. -/
theorem extend {longer : List α} (h : Accounts sent start received next)
    (hp : sent <+: longer) : Accounts longer start received next := by
  induction h with
  | nil next => exact .nil next
  | value ha _ ih => exact .value (getElem?_extend hp ha) ih
  | lagged hpos _ ih => exact .lagged hpos ih

/-- A read goes on from where the reads before it had come to. -/
theorem recv {capacity next' : ℕ} {item : Received α} (h : Accounts sent start received next)
    (hr : recv capacity sent next = some (item, next')) :
    Accounts sent start (received ++ [item]) next' := by
  apply h.append
  rw [BroadcastChannel.recv] at hr
  split at hr
  next hfar =>
    cases hr
    have hnext : next + (sent.length - capacity - next) = sent.length - capacity := by omega
    refine .lagged (by omega) ?_
    rw [hnext]
    exact .nil _
  next =>
    obtain ⟨a, ha, heq⟩ := Option.map_eq_some_iff.mp hr
    cases heq
    exact .value ha (.nil _)

/-- Each message was read, or was missed and a notice says that messages were. -/
theorem told (h : Accounts sent start received next) {i : ℕ} {a : α} (ha : sent[i]? = some a)
    (hstart : start ≤ i) (hnext : i < next) :
    .value a ∈ received ∨ ∃ missed, .lagged missed ∈ received := by
  induction h with
  | nil => omega
  | @value start next b rest hb _ ih =>
    by_cases hi : i = start
    · rw [hi, hb] at ha
      cases ha
      exact .inl List.mem_cons_self
    · obtain hread | ⟨missed, hmissed⟩ := ih (by omega) hnext
      · exact .inl (List.mem_cons_of_mem _ hread)
      · exact .inr ⟨missed, List.mem_cons_of_mem _ hmissed⟩
  | @lagged start next missed rest _ _ ih =>
    exact .inr ⟨missed, List.mem_cons_self⟩

/-- What was read was sent. -/
theorem mem_sent (h : Accounts sent start received next) {a : α} (ha : .value a ∈ received) :
    a ∈ sent := by
  induction h with
  | nil => cases ha
  | value hb _ ih =>
    obtain heq | hrest := List.mem_cons.mp ha
    · cases heq
      exact List.mem_of_getElem? hb
    · exact ih hrest
  | lagged _ _ ih =>
    obtain heq | hrest := List.mem_cons.mp ha
    · cases heq
    · exact ih hrest

end Accounts

end Kitaza.BroadcastChannel
