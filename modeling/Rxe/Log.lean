/-
Logs.

A log is a list to whose end entries are added.  `Along P log` says that every entry stands
in the relation `P` to the list of the entries before it; a log that grows is followed entry
by entry (`along_nil`, `along_concat`).

A ledger is a log of what is taken and what is given back; `balance` is what is left of it.
-/
import Mathlib.Data.Int.Notation
import Mathlib.Data.List.Basic
import Mathlib.Tactic.Common

namespace Log

variable {α : Type*}

/-- Every entry of the log stands in the relation `P` to the entries before it. -/
def Along (P : List α → α → Prop) (log : List α) : Prop :=
  ∀ before e after, log = before ++ e :: after → P before e

variable {P : List α → α → Prop} {log : List α} {e : α}

theorem along_nil : Along P [] := by
  intro before e after h
  cases before <;> cases h

theorem along_concat : Along P (log ++ [e]) ↔ Along P log ∧ P log e := by
  constructor
  · intro h
    refine ⟨fun before x after hlog => h before x (after ++ [e]) ?_, h log e [] rfl⟩
    rw [hlog, List.append_assoc, List.cons_append]
  · rintro ⟨hlog, he⟩ before x after h
    rcases List.eq_nil_or_concat after with rfl | ⟨rest, y, rfl⟩
    · obtain ⟨rfl, hx⟩ := List.append_inj' h rfl
      cases hx
      exact he
    · rw [List.concat_eq_append, ← List.cons_append, ← List.append_assoc] at h
      exact hlog before x rest (List.append_inj' h rfl).1

/-! ### Ledgers -/

/-- An entry of a ledger. -/
inductive Entry (α : Type*)
  | take (a : α)
  | give (a : α)

variable [DecidableEq α]

/-- How often `a` was taken and not given back; negative if it was given back too often. -/
def balance (a : α) : List (Entry α) → ℤ
  | [] => 0
  | .take b :: log => (if b = a then 1 else 0) + balance a log
  | .give b :: log => (if b = a then -1 else 0) + balance a log

variable (a : α)

@[simp] theorem balance_nil : balance a [] = 0 := rfl

@[simp] theorem balance_take (b : α) (log : List (Entry α)) :
    balance a (.take b :: log) = (if b = a then 1 else 0) + balance a log := rfl

@[simp] theorem balance_give (b : α) (log : List (Entry α)) :
    balance a (.give b :: log) = (if b = a then -1 else 0) + balance a log := rfl

@[simp] theorem balance_append (log log' : List (Entry α)) :
    balance a (log ++ log') = balance a log + balance a log' := by
  induction log with
  | nil => simp
  | cons e log ih => cases e <;> simp [ih, Int.add_assoc]

@[simp] theorem balance_map_take (l : List α) : balance a (l.map .take) = l.count a := by
  induction l with
  | nil => rfl
  | cons b l ih => by_cases h : b = a <;> simp [ih, h, Int.add_comm]

@[simp] theorem balance_map_give (l : List α) : balance a (l.map .give) = -l.count a := by
  induction l with
  | nil => rfl
  | cons b l ih =>
    simp only [List.map_cons, balance_give, ih, List.count_cons, beq_iff_eq]
    split <;> omega

end Log
