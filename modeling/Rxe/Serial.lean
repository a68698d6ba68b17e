/-
Serial-number arithmetic: comparing counters of which only a residue is kept.

`diff m a b` is the signed distance from `b` to `a` modulo `m`, taken in the
balanced range `[-m/2, m/2)`.  It depends only on the residues of its arguments
(`diff_emod_left`, `diff_emod_right`), and it is the true distance of the two
counters whenever they lie in one half-open window of `m/2` consecutive values
(`diff_of_window`).  Nothing here is specific to a protocol.
-/
import Mathlib.Data.Int.ModEq
import Mathlib.Tactic.Ring

namespace Serial

/-- Signed distance from `b` to `a` modulo `m`, in `[-m/2, m/2)`. -/
def diff (m : ℕ) (a b : ℤ) : ℤ := Int.bmod (a - b) m

theorem diff_emod_left (m : ℕ) (a b : ℤ) : diff m (a % m) b = diff m a b := by
  rw [diff, diff, ← Int.emod_bmod (x := a % m - b), ← Int.emod_bmod (x := a - b)]
  rw [Int.emod_sub_emod]

theorem diff_emod_right (m : ℕ) (a b : ℤ) : diff m a (b % m) = diff m a b := by
  rw [diff, diff, ← Int.emod_bmod (x := a - b % m), ← Int.emod_bmod (x := a - b)]
  rw [Int.sub_emod_emod]

/-- Inside one window of half the modulus the residue distance is the true one. -/
theorem diff_of_window {m : ℕ} {a b : ℤ} (hlo : -(m : ℤ) ≤ (a - b) * 2)
    (hhi : (a - b) * 2 < m) : diff m a b = a - b :=
  Int.bmod_eq_of_le_mul_two hlo hhi

/-- The distance vanishes exactly when the residues agree. -/
theorem diff_eq_zero_iff {m : ℕ} {a b : ℤ} : diff m a b = 0 ↔ a % m = b % m := by
  rw [diff, ← Int.bmod_eq_bmod_iff_bmod_sub_eq_zero]
  constructor
  · intro h
    rw [← Int.bmod_emod (x := a), ← Int.bmod_emod (x := b), h]
  · intro h
    rw [← Int.emod_bmod (x := a), ← Int.emod_bmod (x := b), h]

end Serial
