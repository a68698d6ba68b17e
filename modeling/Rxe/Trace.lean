/-
Runs of a labelled transition system.

A run is an infinite sequence of states; between two of them a labelled step is taken, or
nothing happens, so that a finite run is one in which nothing happens from some time on.

* `Reach` — the states reached by finitely many steps that all meet a condition, with its
  invariant rule `Reach.inv`;
* `Run.inv` — what holds at the start and is kept by every step holds at all times;
* `Run.always_iff` — what a step keeps exactly if it meets a condition holds at all times
  exactly if all steps meet the condition;
* `Run.persists` — what every step keeps unless it is of a certain kind holds until a step
  of that kind is taken.
-/
import Mathlib.Data.Nat.Init
import Mathlib.Tactic.Common

namespace Trace

/-- The states reached from `s₀` by steps that all meet the condition `ok`. -/
inductive Reach {σ α : Type*} (step : σ → α → Option σ) (ok : σ → α → Prop) (s₀ : σ) : σ → Prop
  | start : Reach step ok s₀ s₀
  | next {s s' : σ} {a : α} (hreach : Reach step ok s₀ s) (hok : ok s a)
      (hstep : step s a = some s') : Reach step ok s₀ s'

variable {σ α : Type*} {step : σ → α → Option σ} {ok : σ → α → Prop} {s₀ s t : σ}

/-- Invariant rule for reachable states. -/
theorem Reach.inv {I : σ → Prop} (hinit : I s₀)
    (hstep : ∀ s a s', I s → ok s a → step s a = some s' → I s') (h : Reach step ok s₀ s) :
    I s := by
  induction h with
  | start => exact hinit
  | next _ hok hs ih => exact hstep _ _ _ ih hok hs

/-- The steps of a list of actions, all of which meet the condition, lead from `s` to `t`. -/
def Steps {σ α : Type*} (step : σ → α → Option σ) (ok : σ → α → Prop) : List α → σ → σ → Prop
  | [], s, t => s = t
  | a :: acts, s, t => ok s a ∧ ∃ s', step s a = some s' ∧ Steps step ok acts s' t

theorem Steps.reach {acts : List α} (hsteps : Steps step ok acts s t) (h : Reach step ok s₀ s) :
    Reach step ok s₀ t := by
  induction acts generalizing s with
  | nil => exact hsteps ▸ h
  | cons a acts ih =>
    obtain ⟨hok, s', hs, hrest⟩ := hsteps
    exact ih hrest (h.next hok hs)

/-- Steps that can be taken in any state. -/
theorem Reach.foldlM (acts : List α) (hok : ∀ s, ∀ a ∈ acts, ok s a) (h : Reach step ok s₀ s)
    (hrun : acts.foldlM step s = some t) : Reach step ok s₀ t := by
  induction acts generalizing s with
  | nil =>
    cases hrun
    exact h
  | cons a acts ih =>
    obtain ⟨s', hs', hrest⟩ := Option.bind_eq_some_iff.1 hrun
    exact ih (fun s a ha => hok s a (List.mem_cons_of_mem _ ha))
      (h.next (hok s a List.mem_cons_self) hs') hrest

/-- Steps that pass a test of the condition. -/
theorem Reach.foldlM_checked {check : σ → α → Bool} (hcheck : ∀ s a, check s a → ok s a)
    (acts : List α) (h : Reach step ok s₀ s)
    (hrun : acts.foldlM (fun s a => if check s a then step s a else none) s = some t) :
    Reach step ok s₀ t := by
  induction acts generalizing s with
  | nil =>
    cases hrun
    exact h
  | cons a acts ih =>
    rw [List.foldlM_cons] at hrun
    obtain ⟨s', hs', hrest⟩ := Option.bind_eq_some_iff.1 hrun
    split at hs'
    · next hok => exact ih (h.next (hcheck s a hok) hs') hrest
    · cases hs'

/-- A run of the steps `step`; `act t` is the label of the step taken at time `t`, if any. -/
structure Run {σ α : Type*} (step : σ → α → Option σ) where
  state : ℕ → σ
  act : ℕ → Option α
  stutter : ∀ t, act t = none → state (t + 1) = state t
  taken : ∀ t a, act t = some a → step (state t) a = some (state (t + 1))

namespace Run

variable {σ α : Type*} {step : σ → α → Option σ} (run : Run step)

/-- Invariant rule. -/
theorem inv {I : σ → Prop} (hinit : I (run.state 0))
    (hstep : ∀ s a s', I s → step s a = some s' → I s') (t : ℕ) : I (run.state t) := by
  induction t with
  | zero => exact hinit
  | succ t ih =>
    cases hact : run.act t with
    | none =>
      rw [run.stutter t hact]
      exact ih
    | some a => exact hstep _ a _ ih (run.taken t a hact)

/-- Invariant rule for a run whose steps meet a condition up to some time. -/
theorem inv_until {I : σ → Prop} {C : σ → α → Prop} (hinit : I (run.state 0))
    (hstep : ∀ s a s', I s → C s a → step s a = some s' → I s') (t : ℕ)
    (hok : ∀ u < t, ∀ a, run.act u = some a → C (run.state u) a) : I (run.state t) := by
  induction t with
  | zero => exact hinit
  | succ t ih =>
    have ht := ih fun u hu => hok u (Nat.lt_succ_of_lt hu)
    cases hact : run.act t with
    | none =>
      rw [run.stutter t hact]
      exact ht
    | some a => exact hstep _ a _ ht (hok t (Nat.lt_succ_self t) a hact) (run.taken t a hact)

/-- A property that a step keeps exactly if the step meets a condition always holds exactly if
all steps meet the condition. -/
theorem always_iff {Q : σ → Prop} {ok : σ → α → Prop} (hinit : Q (run.state 0))
    (hstep : ∀ t a, run.act t = some a → Q (run.state t) →
      (Q (run.state (t + 1)) ↔ ok (run.state t) a)) :
    (∀ t, Q (run.state t)) ↔ ∀ t a, run.act t = some a → ok (run.state t) a := by
  constructor
  · intro hQ t a hact
    exact (hstep t a hact (hQ t)).1 (hQ (t + 1))
  · intro hok t
    induction t with
    | zero => exact hinit
    | succ t ih =>
      cases hact : run.act t with
      | none =>
        rw [run.stutter t hact]
        exact ih
      | some a => exact (hstep t a hact ih).2 (hok t a hact)

/-- What holds at time `t`, and is kept by every step that is not of kind `E`, holds at a
later time `t'` unless such a step was taken in between. -/
theorem persists {P : σ → Prop} {E : α → Prop} {t t' : ℕ} (hP : P (run.state t)) (hle : t ≤ t')
    (hstep : ∀ u a s', t ≤ u → P (run.state u) → step (run.state u) a = some s' → P s' ∨ E a) :
    P (run.state t') ∨ ∃ u a, t ≤ u ∧ u < t' ∧ run.act u = some a ∧ E a := by
  induction t', hle using Nat.le_induction with
  | base => exact Or.inl hP
  | succ u hle ih =>
    rcases ih with hu | ⟨v, a, htv, hvu, hact, hE⟩
    · cases hact : run.act u with
      | none =>
        rw [run.stutter u hact]
        exact Or.inl hu
      | some a =>
        rcases hstep u a _ hle hu (run.taken u a hact) with hP' | hE
        · exact Or.inl hP'
        · exact Or.inr ⟨u, a, hle, Nat.lt_succ_self u, hact, hE⟩
    · exact Or.inr ⟨v, a, htv, Nat.lt_succ_of_lt hvu, hact, hE⟩

/-- The run that takes the steps of a list one after the other, leaving out those that cannot
be taken. -/
def ofActs (step : σ → α → Option σ) (s₀ : σ) (acts : List α) : Run step where
  state t := (acts.take t).foldl (fun s a => (step s a).getD s) s₀
  act t := (acts[t]?).filter fun a =>
    (step ((acts.take t).foldl (fun s a => (step s a).getD s) s₀) a).isSome
  stutter t h := by
    rw [List.take_add_one, List.foldl_append]
    cases ha : acts[t]? with
    | none => rfl
    | some a =>
      rw [ha, Option.filter_eq_none_iff] at h
      have hnone := h a rfl
      rw [Bool.not_eq_true, Option.isSome_eq_false_iff, Option.isNone_iff_eq_none] at hnone
      show (step _ a).getD _ = _
      rw [hnone]
      rfl
  taken t a h := by
    obtain ⟨ha, hsome⟩ := Option.filter_eq_some_iff.1 h
    rw [List.take_add_one, List.foldl_append, ha]
    obtain ⟨s', hs'⟩ := Option.isSome_iff_exists.1 hsome
    show step _ a = some ((step _ a).getD _)
    rw [hs']
    rfl

end Run

end Trace
