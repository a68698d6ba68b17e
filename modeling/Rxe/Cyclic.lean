/-
Windows of a ring of cells.

The cells `0, …, n - 1` are arranged in a ring.  A window of it is read from a position on,
round its end if need be.

* `ahead` — how far one position is ahead of another;
* `window` — the cells from a position on;
* `window_succ`, `window_cons` — the window grows at its end and shrinks at its front.
-/
import Mathlib.Data.List.Range
import Mathlib.Data.Nat.ModEq
import Mathlib.Tactic.Common

namespace Cyclic

variable {α : Type*} {n i j k p c : ℕ}

/-- How far `p` is ahead of `c`. -/
def ahead (n p c : ℕ) : ℕ := (p + n - c) % n

theorem ahead_lt (h : 0 < n) : ahead n p c < n := Nat.mod_lt _ h

theorem ahead_self : ahead n c c = 0 := by
  rw [ahead, Nat.add_sub_cancel_left, Nat.mod_self]

/-- The position that is `ahead n p c` ahead of `c`. -/
theorem add_ahead (hp : p < n) (hc : c < n) : (c + ahead n p c) % n = p := by
  rw [ahead, Nat.add_mod_mod, show c + (p + n - c) = p + n by omega, Nat.add_mod_right,
    Nat.mod_eq_of_lt hp]

theorem ahead_succ (h : c ≤ p + n) : ahead n (p + 1) c = (ahead n p c + 1) % n := by
  rw [ahead, ahead, Nat.mod_add_mod, show p + 1 + n - c = p + n - c + 1 by omega]

theorem ahead_add (hc : c < n) (hk : k < n) : ahead n ((c + k) % n) c = k := by
  unfold ahead
  rcases Nat.lt_or_ge (c + k) n with h | h
  · rw [Nat.mod_eq_of_lt h, show c + k + n - c = k + n by omega, Nat.add_mod_right,
      Nat.mod_eq_of_lt hk]
  · rw [Nat.mod_eq_sub_mod h, Nat.mod_eq_of_lt (show c + k - n < n by omega),
      show c + k - n + n - c = k by omega, Nat.mod_eq_of_lt hk]

theorem ahead_eq_iff (hp : p < n) (hc : c < n) (hk : k < n) :
    ahead n p c = k ↔ p = (c + k) % n := by
  constructor
  · rintro rfl
    exact (add_ahead hp hc).symm
  · rintro rfl
    exact ahead_add hc hk

/-- Positions of a window that are different stay different round the end. -/
theorem add_mod_inj (hi : i < n) (hj : j < n) (h : (c + i) % n = (c + j) % n) : i = j := by
  have hmod : i % n = j % n := Nat.ModEq.add_left_cancel' c h
  rwa [Nat.mod_eq_of_lt hi, Nat.mod_eq_of_lt hj] at hmod

/-- The `k` cells from `i` on. -/
def window (cell : ℕ → α) (n i k : ℕ) : List α := (List.range k).map fun j => cell ((i + j) % n)

variable {cell : ℕ → α}

theorem window_succ : window cell n i (k + 1) = window cell n i k ++ [cell ((i + k) % n)] := by
  rw [window, List.range_succ, List.map_append]
  rfl

theorem window_cons (hi : i < n) :
    window cell n i (k + 1) = cell i :: window cell n ((i + 1) % n) k := by
  rw [window, List.range_succ_eq_map, List.map_cons, List.map_map, Nat.add_zero,
    Nat.mod_eq_of_lt hi]
  refine congrArg (_ :: ·) (List.map_congr_left fun j _ => ?_)
  show cell ((i + (j + 1)) % n) = cell (((i + 1) % n + j) % n)
  rw [Nat.mod_add_mod, Nat.add_assoc, Nat.add_comm 1 j]

/-- The windows of two rings with the same cells in them are the same. -/
theorem window_congr {cell' : ℕ → α} (h : ∀ j < k, cell' ((i + j) % n) = cell ((i + j) % n)) :
    window cell' n i k = window cell n i k :=
  List.map_congr_left fun j hj => h j (List.mem_range.1 hj)

end Cyclic
