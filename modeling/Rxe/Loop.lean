/-
Bounded execution of a `while (1)` loop.

`run step n s` iterates `step` from `s` until it answers, for at most `n`
iterations.  The rules used on it are

* `run_inv` — an invariant of the iterations decides the answer;
* `run_mono`, `run_unique` — an answer does not depend on the bound;
* `run_isSome` — a measure that every iteration lowers bounds the loop;
* `run_eq_none` — a loop that cannot leave a set of states gives no answer.
-/
import Mathlib.Order.Lattice
import Mathlib.Tactic.Common

namespace Loop

variable {σ ρ : Type*}

/-- Iterate `step` from a state until it answers, at most `n` times. -/
def run (step : σ → σ ⊕ ρ) : ℕ → σ → Option ρ
  | 0, _ => none
  | n + 1, s =>
    match step s with
    | .inl s' => run step n s'
    | .inr r => some r

@[simp] theorem run_zero (step : σ → σ ⊕ ρ) (s : σ) : run step 0 s = none := rfl

variable {step : σ → σ ⊕ ρ} {n : ℕ} {s : σ} {I : σ → Prop}

theorem run_succ_inl {s' : σ} (h : step s = .inl s') : run step (n + 1) s = run step n s' := by
  rw [run, h]

theorem run_succ_inr {r : ρ} (h : step s = .inr r) : run step (n + 1) s = some r := by
  rw [run, h]

/-- Invariant rule: what every iteration preserves holds where the loop answers. -/
theorem run_inv {Q : ρ → Prop} (hstep : ∀ s s', I s → step s = .inl s' → I s')
    (hexit : ∀ s r, I s → step s = .inr r → Q r) :
    ∀ {n : ℕ} {s : σ} {r : ρ}, I s → run step n s = some r → Q r := by
  intro n
  induction n with
  | zero =>
    intro s r _ h
    simp at h
  | succ n ih =>
    intro s r hI h
    cases hs : step s with
    | inl s' =>
      rw [run_succ_inl hs] at h
      exact ih (hstep s s' hI hs) h
    | inr r' =>
      rw [run_succ_inr hs, Option.some_inj] at h
      subst h
      exact hexit s r' hI hs

/-- An answer reached within `n` iterations is reached within any larger bound. -/
theorem run_mono :
    ∀ {n n' : ℕ} {s : σ} {r : ρ}, n ≤ n' → run step n s = some r → run step n' s = some r := by
  intro n
  induction n with
  | zero =>
    intro n' s r _ h
    simp at h
  | succ n ih =>
    intro n' s r hn h
    obtain ⟨n'', rfl⟩ : ∃ n'', n' = n'' + 1 := ⟨n' - 1, by omega⟩
    cases hs : step s with
    | inl s' =>
      rw [run_succ_inl hs] at h ⊢
      exact ih (by omega) h
    | inr r' =>
      rw [run_succ_inr hs] at h ⊢
      exact h

/-- Two bounds that both suffice give the same answer. -/
theorem run_unique {n' : ℕ} {r r' : ρ} (h : run step n s = some r) (h' : run step n' s = some r') :
    r = r' := by
  have hmax := run_mono (le_max_left n n') h
  rw [run_mono (le_max_right n n') h'] at hmax
  exact (Option.some.inj hmax).symm

/-- Variant rule: if every iteration keeps `I` and lowers `μ`, then `μ s + 1`
iterations are enough. -/
theorem run_isSome (μ : σ → ℕ) (hstep : ∀ s s', I s → step s = .inl s' → I s' ∧ μ s' < μ s) :
    ∀ {n : ℕ} {s : σ}, I s → μ s < n → (run step n s).isSome := by
  intro n
  induction n with
  | zero =>
    intro s _ h
    omega
  | succ n ih =>
    intro s hI hn
    cases hs : step s with
    | inl s' =>
      obtain ⟨hI', hlt⟩ := hstep s s' hI hs
      rw [run_succ_inl hs]
      exact ih hI' (by omega)
    | inr r =>
      rw [run_succ_inr hs]
      rfl

/-- Divergence rule: in states from which every iteration leads back to such a state, no
number of iterations gives an answer. -/
theorem run_eq_none (hstep : ∀ s, I s → ∃ s', step s = .inl s' ∧ I s') :
    ∀ (n : ℕ) {s : σ}, I s → run step n s = none := by
  intro n
  induction n with
  | zero => exact fun _ => rfl
  | succ n ih =>
    intro s hI
    obtain ⟨s', hs, hI'⟩ := hstep s hI
    rw [run_succ_inl hs]
    exact ih hI'

end Loop
