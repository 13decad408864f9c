import Mathlib.Order.Disjoint
import Mathlib.Order.Lattice
import Kitaza.KeyedTable

/-!
# Transactions that lock rows one by one

A transaction reads first, which decides the statements it will issue, and
then issues them one by one. Every statement reads what is committed and what
the transaction wrote itself, and locks the rows it writes until the end.
Commits make the written rows visible at once.

The order of the commits is a serial order, as long as every transaction
could still be replayed from what is committed: its statements would do again
what they did. What may go wrong with that is left to the instance, as two
predicates: a transaction that a commit has overtaken, and a commit that
leaves another transaction undisturbed.
-/

namespace Kitaza.RowLocks

open KeyedTable

/-- A database as transactions work on it: states, sets of locked rows,
statements and requests. -/
structure Engine (σ L S R : Type*) [DistribLattice L] [OrderBot L] where
  /-- The statements of a request, once its first read is answered; absent if
  the request ends there. -/
  plan : R → σ → Option (List S)
  /-- The rows the first read locks. -/
  readLocks : R → σ → L
  /-- One statement; absent if it fails. -/
  exec : S → σ → Option σ
  /-- The rows a statement locks. -/
  writeLocks : S → σ → L
  /-- The second state with the rows of the first in some places. -/
  graft : L → σ → σ → σ
  /-- A state's own rows change nothing. -/
  graft_self : ∀ l c, graft l c c = c
  /-- What was written over grafted rows is a graft. -/
  graft_sup : ∀ {a b m c v}, graft b v (graft a m c) = v → graft (a ⊔ b) v c = v
  /-- Grafts in different places commute. -/
  graft_comm : ∀ {a b} x y c, Disjoint a b →
    graft a x (graft b y c) = graft b y (graft a x c)
  /-- A statement writes only rows it locks. -/
  exec_graft : ∀ {s c v}, exec s c = some v → graft (writeLocks s c) v c = v

/-- A transaction in progress. -/
structure Transaction (σ L S R : Type*) where
  /-- What it was asked to do. -/
  request : R
  /-- The statements issued so far. -/
  executed : List S
  /-- The statements to come. -/
  todo : List S
  /-- The rows it has written. -/
  rows : σ
  /-- The rows it has locked. -/
  locks : L

/-- The server. -/
structure State (σ L S R : Type*) where
  /-- What is committed. -/
  committed : σ
  /-- The transactions in progress. -/
  running : Table ℕ (Transaction σ L S R)
  /-- The requests whose transactions were committed, in that order. -/
  log : List R

/-- What can happen next. -/
inductive Action (R : Type*) where
  /-- A transaction begins with its first read. -/
  | start (i : ℕ) (request : R)
  /-- It issues its next statement. -/
  | next (i : ℕ)
  /-- It commits. -/
  | commit (i : ℕ)
  /-- It is rolled back: by an error, a deadlock, a lost connection. -/
  | abort (i : ℕ)
  deriving DecidableEq

variable {σ L S R : Type*} [DistribLattice L] [OrderBot L]

/-- A server at rest. -/
def State.initial (c : σ) : State σ L S R := ⟨c, Table.empty, []⟩

/-- Some other transaction holds one of the rows. -/
def Held (i : ℕ) (l : L) (s : State σ L S R) : Prop :=
  s.running.Any fun j t => j ≠ i ∧ ¬ Disjoint t.locks l

instance [DecidableRel fun a b : L => Disjoint a b] (i : ℕ) (l : L) (s : State σ L S R) :
    Decidable (Held i l s) :=
  inferInstanceAs (Decidable (s.running.Any _))

/-- The step is taken by no transaction that was overtaken, and a commit
leaves the others undisturbed. -/
def Safe (overtaken : σ → Transaction σ L S R → Prop)
    (quiet : Transaction σ L S R → Transaction σ L S R → Prop) (s : State σ L S R) :
    Action R → Prop
  | .start _ _ => True
  | .next i => ∀ t ∈ s.running.find? i, ¬ overtaken s.committed t
  | .commit i => ∀ u ∈ s.running.find? i, ¬ s.running.Any fun j t => j ≠ i ∧ ¬ quiet t u
  | .abort _ => True

instance (overtaken : σ → Transaction σ L S R → Prop)
    (quiet : Transaction σ L S R → Transaction σ L S R → Prop)
    [∀ c t, Decidable (overtaken c t)] [∀ t u, Decidable (quiet t u)] (s : State σ L S R) :
    (a : Action R) → Decidable (Safe overtaken quiet s a)
  | .start _ _ => inferInstanceAs (Decidable True)
  | .next i => inferInstanceAs (Decidable (∀ t ∈ s.running.find? i, ¬ overtaken s.committed t))
  | .commit i => inferInstanceAs (Decidable (∀ u ∈ s.running.find? i, ¬ s.running.Any _))
  | .abort _ => inferInstanceAs (Decidable True)

namespace Engine

variable (e : Engine σ L S R)

/-- What a transaction sees: what is committed, and its own rows. -/
def view (c : σ) (t : Transaction σ L S R) : σ := e.graft t.locks t.rows c

/-- Statements one after another, with the rows locked along the way. -/
def replay : List S → σ × L → Option (σ × L)
  | [], s => some s
  | stmt :: rest, (c, l) => (e.exec stmt c).bind fun c' => replay rest (c', l ⊔ e.writeLocks stmt c)

/-- A request on its own, from its first read to its commit. -/
def perform (r : R) (c : σ) : Option σ :=
  (e.plan r c).bind fun stmts => (e.replay stmts (c, e.readLocks r c)).map Prod.fst

/-- Requests one after another. -/
def serial : List R → σ → Option σ
  | [], c => some c
  | r :: rest, c => (e.perform r c).bind (serial rest)

/-- One step of the server. A statement that needs a row somebody else holds
waits; one that fails ends its transaction. -/
def step [DecidableRel fun a b : L => Disjoint a b] (s : State σ L S R) :
    Action R → Option (State σ L S R)
  | .start i r =>
    match s.running.find? i, e.plan r s.committed with
    | some _, _ => none
    | none, none => some s
    | none, some todo =>
      if Held i (e.readLocks r s.committed) s then none
      else some { s with
        running := s.running.put i ⟨r, [], todo, s.committed, e.readLocks r s.committed⟩ }
  | .next i =>
    match s.running.find? i with
    | none => none
    | some t =>
      match t.todo with
      | [] => none
      | stmt :: rest =>
        let v := e.view s.committed t
        if Held i (e.writeLocks stmt v) s then none
        else
          match e.exec stmt v with
          | none => some { s with running := s.running.filter fun j _ => !(j == i) }
          | some v' => some { s with
              running := s.running.put i { t with
                executed := t.executed ++ [stmt]
                todo := rest
                rows := v'
                locks := t.locks ⊔ e.writeLocks stmt v } }
  | .commit i =>
    match s.running.find? i with
    | none => none
    | some t =>
      match t.todo with
      | [] => some
          { committed := e.view s.committed t
            running := s.running.filter fun j _ => !(j == i)
            log := s.log ++ [t.request] }
      | _ :: _ => none
  | .abort i => some { s with running := s.running.filter fun j _ => !(j == i) }

/-- The steps that can be taken, one after another. -/
def run [DecidableRel fun a b : L => Disjoint a b] (s : State σ L S R) :
    List (Action R) → Option (State σ L S R)
  | [] => some s
  | a :: rest => (e.step s a).bind fun s' => run s' rest

theorem replay_append (a b : List S) (s : σ × L) :
    e.replay (a ++ b) s = (e.replay a s).bind (e.replay b) := by
  induction a generalizing s with
  | nil => rfl
  | cons stmt rest ih =>
    obtain ⟨c, l⟩ := s
    rw [List.cons_append, replay, replay, Option.bind_assoc]
    exact congrArg (Option.bind _) (funext fun c' => ih _)

theorem serial_append (a b : List R) (c : σ) :
    e.serial (a ++ b) c = (e.serial a c).bind (e.serial b) := by
  induction a generalizing c with
  | nil => rfl
  | cons r rest ih =>
    rw [List.cons_append, serial, serial, Option.bind_assoc]
    exact congrArg (Option.bind _) (funext ih)

/-- Locks are only added. -/
theorem le_of_replay {stmts : List S} {c v : σ} {l k : L}
    (h : e.replay stmts (c, l) = some (v, k)) : l ≤ k := by
  induction stmts generalizing c l with
  | nil =>
    cases h
    exact le_rfl
  | cons stmt rest ih =>
    obtain ⟨c', _, h⟩ := Option.bind_eq_some_iff.mp h
    exact le_sup_left.trans (ih h)

/-- A transaction that could be replayed from what is committed: its first
read and its statements would do again what they did. -/
structure Sound (c : σ) (t : Transaction σ L S R) : Prop where
  /-- The first read. -/
  plan : e.plan t.request c = some (t.executed ++ t.todo)
  /-- The statements so far. -/
  replay : e.replay t.executed (c, e.readLocks t.request c) = some (e.view c t, t.locks)

/-- A transaction about to commit does what its request does on its own. -/
theorem Sound.perform {e : Engine σ L S R} {c : σ} {t : Transaction σ L S R} (h : e.Sound c t)
    (hdone : t.todo = []) : e.perform t.request c = some (e.view c t) := by
  have hplan := h.plan
  rw [hdone, List.append_nil] at hplan
  rw [Engine.perform, hplan, Option.bind_some, h.replay]
  rfl

theorem sound_start {r : R} {c : σ} {todo : List S} (h : e.plan r c = some todo) :
    e.Sound c ⟨r, [], todo, c, e.readLocks r c⟩ := by
  refine ⟨h, ?_⟩
  rw [view, e.graft_self]
  rfl

/-- One more statement. -/
theorem Sound.next {e : Engine σ L S R} {c v' : σ} {t : Transaction σ L S R} {stmt : S}
    {rest : List S} (h : e.Sound c t) (htodo : t.todo = stmt :: rest)
    (hexec : e.exec stmt (e.view c t) = some v') :
    e.Sound c { t with
      executed := t.executed ++ [stmt]
      todo := rest
      rows := v'
      locks := t.locks ⊔ e.writeLocks stmt (e.view c t) } := by
  have hview : e.graft (t.locks ⊔ e.writeLocks stmt (e.view c t)) v' c = v' :=
    e.graft_sup (e.exec_graft hexec)
  constructor
  · rw [h.plan, htodo, List.append_assoc]
    rfl
  · rw [replay_append, h.replay, Option.bind_some, Engine.replay, hexec, Option.bind_some]
    change some _ = some (e.graft _ v' c, _)
    rw [hview]

/-- Statements that a graft elsewhere leaves alone do the same over it. -/
theorem replay_graft {keys : L} {rows : σ} (undisturbed : σ → S → Prop)
    (hexec : ∀ {c s}, undisturbed c s → Disjoint (e.writeLocks s c) keys →
      e.exec s (e.graft keys rows c) = (e.exec s c).map (e.graft keys rows) ∧
        e.writeLocks s (e.graft keys rows c) = e.writeLocks s c)
    (hkeeps : ∀ {c c' s s'}, undisturbed c s' → e.exec s c = some c' →
      Disjoint (e.writeLocks s c) keys → undisturbed c' s')
    {stmts : List S} {c v : σ} {l k : L} (h : e.replay stmts (c, l) = some (v, k))
    (hk : Disjoint k keys) (hall : ∀ s ∈ stmts, undisturbed c s) :
    e.replay stmts (e.graft keys rows c, l) = some (e.graft keys rows v, k) := by
  induction stmts generalizing c l with
  | nil =>
    cases h
    rfl
  | cons stmt rest ih =>
    obtain ⟨c', hc', h⟩ := Option.bind_eq_some_iff.mp h
    have hw : Disjoint (e.writeLocks stmt c) keys :=
      hk.mono_left (le_sup_right.trans (e.le_of_replay h))
    obtain ⟨hsame, hlocks⟩ := hexec (hall stmt List.mem_cons_self) hw
    rw [replay, hsame, hlocks, hc', Option.map_some, Option.bind_some]
    exact ih h fun s hs => hkeeps (hall s (List.mem_cons_of_mem _ hs)) hc' hw

section Serial

variable (overtaken : σ → Transaction σ L S R → Prop)
variable (quiet : Transaction σ L S R → Transaction σ L S R → Prop)

/-- Every step of a run is safe. -/
def SafeRun [DecidableRel fun a b : L => Disjoint a b] (s : State σ L S R) :
    List (Action R) → Prop
  | [] => True
  | a :: rest => Safe overtaken quiet s a ∧ ∀ s' ∈ e.step s a, SafeRun s' rest

instance decidableSafeRun [DecidableRel fun a b : L => Disjoint a b]
    [∀ c t, Decidable (overtaken c t)] [∀ t u, Decidable (quiet t u)] :
    (s : State σ L S R) → (actions : List (Action R)) →
      Decidable (e.SafeRun overtaken quiet s actions)
  | _, [] => isTrue trivial
  | s, a :: rest =>
    have : ∀ s', Decidable (e.SafeRun overtaken quiet s' rest) := fun s' => decidableSafeRun s' rest
    inferInstanceAs (Decidable (_ ∧ ∀ s' ∈ e.step s a, e.SafeRun overtaken quiet s' rest))

/-- What holds between two steps. -/
structure Inv (c₀ : σ) (s : State σ L S R) : Prop where
  /-- The commits are a serial order. -/
  serial : e.serial s.log c₀ = some s.committed
  /-- Every transaction could be replayed, or was overtaken. -/
  sound : ∀ i t, s.running.find? i = some t → e.Sound s.committed t ∨ overtaken s.committed t
  /-- No row is locked twice. -/
  apart : ∀ i j t u, s.running.find? i = some t → s.running.find? j = some u → i ≠ j →
    Disjoint t.locks u.locks

/-- What an instance has to show about the two predicates. -/
structure Admits : Prop where
  /-- An overtaken transaction is not done. -/
  todo : ∀ {c t}, overtaken c t → t.todo ≠ []
  /-- It stays overtaken. -/
  stays : ∀ {c t u}, overtaken c t → e.Sound c u → overtaken (e.view c u) t
  /-- A commit that leaves a transaction undisturbed keeps it replayable, or
  overtakes it. -/
  commit : ∀ {c t u}, e.Sound c t → e.Sound c u → Disjoint t.locks u.locks → quiet t u →
    e.Sound (e.view c u) t ∨ overtaken (e.view c u) t

variable {overtaken quiet}

theorem inv_initial (c₀ : σ) : e.Inv overtaken c₀ (State.initial c₀) where
  serial := rfl
  sound := fun _ _ h => by cases h
  apart := fun _ _ _ _ h => by cases h

theorem not_held {i : ℕ} {l : L} {s : State σ L S R} (h : ¬ Held i l s) {j : ℕ}
    {t : Transaction σ L S R} (ht : s.running.find? j = some t) (hj : j ≠ i) :
    Disjoint t.locks l := by
  by_contra hn
  exact Table.not_any.mp h j t ht ⟨hj, hn⟩

/-- Ending one transaction keeps the others. -/
theorem Inv.remove {c₀ : σ} {s : State σ L S R} (h : e.Inv overtaken c₀ s) (i : ℕ) :
    e.Inv overtaken c₀ { s with running := s.running.filter fun j _ => !(j == i) } where
  serial := h.serial
  sound := fun j t ht => h.sound j t (Table.find?_filter_eq_some.mp ht).1
  apart := fun j k t u ht hu => h.apart j k t u (Table.find?_filter_eq_some.mp ht).1
    (Table.find?_filter_eq_some.mp hu).1

/-- A transaction whose locks are free of the others' may take its place. -/
theorem Inv.put {e : Engine σ L S R} {c₀ : σ} {s : State σ L S R} (h : e.Inv overtaken c₀ s)
    {i : ℕ} {t : Transaction σ L S R} (ht : e.Sound s.committed t)
    (hfree : ∀ j u, s.running.find? j = some u → j ≠ i → Disjoint u.locks t.locks) :
    e.Inv overtaken c₀ { s with running := s.running.put i t } where
  serial := h.serial
  sound := by
    intro j u hu
    rw [Table.find?_put] at hu
    split_ifs at hu
    · cases hu
      exact Or.inl ht
    · exact h.sound j u hu
  apart := by
    intro j k u w hu hw hjk
    rw [Table.find?_put] at hu hw
    split_ifs at hu hw with hj hk hk
    · exact absurd (hj.trans hk.symm) hjk
    · cases hu
      exact (hfree k w hw hk).symm
    · cases hw
      exact hfree j u hu hj
    · exact h.apart j k u w hu hw hjk

variable [DecidableRel fun a b : L => Disjoint a b]

/-- One safe step. -/
theorem Inv.step {e : Engine σ L S R} (hadm : e.Admits overtaken quiet) {c₀ : σ}
    {s s' : State σ L S R} {a : Action R} (h : e.Inv overtaken c₀ s)
    (hsafe : Safe overtaken quiet s a) (hstep : e.step s a = some s') :
    e.Inv overtaken c₀ s' := by
  cases a with
  | start i r =>
    simp only [Engine.step] at hstep
    split at hstep
    · cases hstep
    · cases hstep
      exact h
    · rename_i todo _ hplan
      split_ifs at hstep with hheld
      cases hstep
      exact h.put (e.sound_start hplan) fun j u hu hj => not_held hheld hu hj
  | next i =>
    simp only [Engine.step] at hstep
    split at hstep
    · cases hstep
    rename_i t ht
    split at hstep
    · cases hstep
    rename_i stmt rest htodo
    split_ifs at hstep with hheld
    split at hstep
    · cases hstep
      exact h.remove e i
    · rename_i v' hexec
      cases hstep
      have hsound := (h.sound i t ht).resolve_right (hsafe t ht)
      refine h.put (hsound.next htodo hexec) fun j u hu hj => ?_
      refine disjoint_sup_right.mpr ?_
      exact ⟨h.apart j i u t hu ht hj, not_held hheld hu hj⟩
  | commit i =>
    simp only [Engine.step] at hstep
    split at hstep
    · cases hstep
    rename_i u hu
    split at hstep
    · rename_i hdone
      cases hstep
      have hsound := (h.sound i u hu).resolve_right fun ho => hadm.todo ho hdone
      refine ⟨?_, ?_, ?_⟩
      · change e.serial (s.log ++ [u.request]) c₀ = some (e.view s.committed u)
        rw [serial_append, h.serial, Option.bind_some, Engine.serial, hsound.perform hdone]
        rfl
      · intro j t ht
        obtain ⟨ht, hj⟩ := Table.find?_filter_eq_some.mp ht
        have hj : j ≠ i := by simpa using hj
        rcases h.sound j t ht with hs | ho
        · have hquiet : quiet t u := by
            by_contra hn
            exact Table.not_any.mp (hsafe u hu) j t ht ⟨hj, hn⟩
          exact hadm.commit hs hsound (h.apart j i t u ht hu hj) hquiet
        · exact Or.inr (hadm.stays ho hsound)
      · exact (h.remove e i).apart
    · cases hstep
  | abort i =>
    cases hstep
    exact h.remove e i

/-- In a safe run, the commits are a serial order of what is committed. -/
theorem serial_of_safeRun {e : Engine σ L S R} (hadm : e.Admits overtaken quiet) {c₀ : σ}
    {s s' : State σ L S R} {actions : List (Action R)} (h : e.Inv overtaken c₀ s)
    (hsafe : e.SafeRun overtaken quiet s actions) (hrun : e.run s actions = some s') :
    e.serial s'.log c₀ = some s'.committed := by
  induction actions generalizing s with
  | nil =>
    cases hrun
    exact h.serial
  | cons a rest ih =>
    obtain ⟨mid, hmid, hrun⟩ := Option.bind_eq_some_iff.mp hrun
    exact ih (h.step hadm hsafe.1 hmid) (hsafe.2 mid hmid) hrun

end Serial

end Engine

end Kitaza.RowLocks
