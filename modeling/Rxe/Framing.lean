/-
Messages cut into packets.

A message goes out in pieces of a fixed size, the last of which may be shorter, and every
packet says where it stands: it is the only one, the first, one in the middle or the last.

* `opened` — the packets of a message that is not ended, `framed` — all packets of one;
* `opened_concat`, `framed_concat` — what the next packet adds;
* `framed_map` — where they stand depends on their number only;
* `Cut` — the pieces of a message, `Cut.of_full` — how they come about.
-/
import Mathlib.Data.List.Basic
import Mathlib.Algebra.Order.Group.Nat
import Mathlib.Tactic.Common

namespace Framing

/-- Where a packet stands in its message. -/
inductive Place
  | only | first | middle | last
  deriving DecidableEq, Repr

/-- The place of a packet that starts its message or not, and ends it or not. -/
def Place.of : Bool → Bool → Place
  | true, true => .only
  | true, false => .first
  | false, false => .middle
  | false, true => .last

section Frames

variable {β : Type*}

/-- The packets of a message that goes on after them; `start` tells that they start it. -/
def opened : Bool → List β → List (Place × β)
  | _, [] => []
  | start, x :: xs => (.of start false, x) :: opened false xs

/-- The packets of a message up to its end. -/
def framed : Bool → List β → List (Place × β)
  | _, [] => []
  | start, [x] => [(.of start true, x)]
  | start, x :: y :: ys => (.of start false, x) :: framed false (y :: ys)

theorem opened_concat (start : Bool) (xs : List β) (x : β) :
    opened start (xs ++ [x]) = opened start xs ++ [(.of (start && xs.isEmpty) false, x)] := by
  induction xs generalizing start with
  | nil =>
    rw [List.isEmpty_nil, Bool.and_true]
    rfl
  | cons y ys ih =>
    rw [List.isEmpty_cons, Bool.and_false]
    exact congrArg (_ :: ·) (ih false)

theorem framed_concat (start : Bool) (xs : List β) (x : β) :
    framed start (xs ++ [x]) = opened start xs ++ [(.of (start && xs.isEmpty) true, x)] := by
  induction xs generalizing start with
  | nil =>
    rw [List.isEmpty_nil, Bool.and_true]
    rfl
  | cons y ys ih =>
    have hcons : framed start (y :: ys ++ [x]) =
        (.of start false, y) :: framed false (ys ++ [x]) := by
      cases ys <;> rfl
    rw [hcons, ih false, List.isEmpty_cons, Bool.and_false]
    rfl

theorem Place.of_start {start start' ends ends' : Bool}
    (h : Place.of start ends = .of start' ends') :
    start = start' := by
  cases start <;> cases start' <;> cases ends <;> cases ends' <;> first | rfl | cases h

theorem framed_cons (start : Bool) (x : β) (xs : List β) :
    framed start (x :: xs) = (.of start xs.isEmpty, x) :: framed false xs := by
  cases xs <;> rfl

/-- The place of a packet does not depend on what is in it. -/
theorem framed_map {γ : Type*} (f : β → γ) (start : Bool) (xs : List β) :
    framed start (xs.map f) = (framed start xs).map fun x => (x.1, f x.2) := by
  induction xs generalizing start with
  | nil => rfl
  | cons x xs ih =>
    rw [List.map_cons, framed_cons, framed_cons, ih, List.isEmpty_map]
    rfl

theorem length_opened (start : Bool) (xs : List β) : (opened start xs).length = xs.length := by
  induction xs generalizing start with
  | nil => rfl
  | cons y ys ih => exact congrArg (· + 1) (ih false)

end Frames

/-- The number of packets of a message of `n` elements. -/
def count (m n : ℕ) : ℕ := max 1 ((n + m - 1) / m)

theorem count_of_le {m n : ℕ} (hm : 0 < m) (h : n ≤ m) : count m n = 1 := by
  have hlt : (n + m - 1) / m < 2 := (Nat.div_lt_iff_lt_mul hm).2 (by omega)
  rw [count]
  omega

/-- A full packet leaves one packet less. -/
theorem count_of_lt {m n : ℕ} (hm : 0 < m) (h : m < n) : count m n = count m (n - m) + 1 := by
  have hdiv : (n + m - 1) / m = (n - m + m - 1) / m + 1 := by
    rw [show n + m - 1 = n - m + m - 1 + m by omega, Nat.add_div_right _ hm]
  have hpos : 1 ≤ (n - m + m - 1) / m := (Nat.one_le_div_iff hm).2 (by omega)
  rw [count, count, hdiv]
  omega

section Pieces

variable {α : Type*} {m : ℕ} {l : List α} {ps : List (List α)}

/-- The pieces of a message: all but the last have `m` elements, and only a message without
elements has an empty piece. -/
structure Cut (m : ℕ) (l : List α) (ps : List (List α)) : Prop where
  join : ps.flatten = l
  full : ∀ x ∈ ps.dropLast, x.length = m
  last : ∃ x, ps.getLast? = some x ∧ x.length ≤ m ∧ (x = [] → ps.length = 1)

/-- Full pieces, and a last one. -/
theorem Cut.of_full {x : List α} (hfull : ∀ y ∈ ps, y.length = m) (hle : x.length ≤ m)
    (hpos : ps ≠ [] → x ≠ []) : Cut m (ps.flatten ++ x) (ps ++ [x]) where
  join := by
    rw [List.flatten_append, List.flatten_singleton]
  full y hy := by
    rw [List.dropLast_concat] at hy
    exact hfull y hy
  last := by
    refine ⟨x, List.getLast?_concat, hle, fun hnil => ?_⟩
    have hempty : ps = [] := by
      by_contra hne
      exact hpos hne hnil
    rw [hempty]
    rfl

theorem length_flatten_full (hfull : ∀ y ∈ ps, y.length = m) :
    ps.flatten.length = ps.length * m := by
  induction ps with
  | nil => exact (Nat.zero_mul m).symm
  | cons y ys ih =>
    rw [List.flatten_cons, List.length_append, ih fun z hz => hfull z (.tail y hz),
      hfull y (.head ys), List.length_cons, Nat.succ_mul, Nat.add_comm]

end Pieces

end Framing
