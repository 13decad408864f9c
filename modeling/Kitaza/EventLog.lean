import Mathlib.Data.List.Basic

/-!
# Logs that keep to a rule

A program that writes down what it does, oldest first, keeps to a rule when
every entry is right given the entries before it. A log that only grows by
entries that are right keeps to the rule.
-/

namespace Kitaza.EventLog

variable {α : Type*} {rule rule' : List α → α → Prop} {log : List α} {entry : α}

/-- Every entry of a log is right given the entries before it. -/
def KeepsTo (rule : List α → α → Prop) (log : List α) : Prop :=
  ∀ before entry after, log = before ++ entry :: after → rule before entry

theorem keepsTo_nil : KeepsTo rule [] := by
  intro before entry after h
  cases before <;> cases h

/-- A log that grows by an entry that is right. -/
theorem KeepsTo.append (h : KeepsTo rule log) (hentry : rule log entry) :
    KeepsTo rule (log ++ [entry]) := by
  intro before e after hsplit
  rcases List.eq_nil_or_concat after with rfl | ⟨rest, last, rfl⟩
  · obtain ⟨rfl, heq⟩ := List.append_inj' hsplit rfl
    cases heq
    exact hentry
  · rw [List.concat_eq_append, ← List.cons_append, ← List.append_assoc] at hsplit
    obtain ⟨hlog, _⟩ := List.append_inj' hsplit rfl
    exact h before e rest hlog

theorem KeepsTo.mono (h : KeepsTo rule log) (hrule : ∀ before e, rule before e → rule' before e) :
    KeepsTo rule' log :=
  fun before e after hsplit => hrule before e (h before e after hsplit)

/-- What an older state of the log kept to. -/
theorem KeepsTo.earlier {later : List α} (h : KeepsTo rule (log ++ later)) : KeepsTo rule log := by
  intro before e after hsplit
  apply h before e (after ++ later)
  rw [hsplit, List.append_assoc, List.cons_append]

end Kitaza.EventLog
