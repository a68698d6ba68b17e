/-
Tokens that are each in one place.

Tokens are numbered as they come into being, and every place holds a queue of them.  A
`Custody` is kept (`Ok`) if every token that exists is in exactly one place and there once.
New tokens and moves from place to place keep it, so a token that was moved to a place it
never leaves was moved there once.

* `accept_ok`, `move_ok` — the operations keep the custody;
* `Ok.count_eq` — what it says about a place: a token is there once or, if it is in another
  place, not at all.
-/
import Mathlib.Data.List.Nodup
import Mathlib.Data.List.Perm.Subperm
import Mathlib.Data.List.Range
import Mathlib.Logic.Function.Basic
import Mathlib.Tactic.Common

/-- Numbered tokens in places. -/
structure Custody (ι : Type*) where
  next : ℕ := 0
  place : ι → List ℕ := fun _ => []

namespace Custody

variable {ι : Type*} [DecidableEq ι] (c : Custody ι) {i j k : ι} {n : ℕ} {ns : List ℕ}

/-- The number of tokens in a place. -/
def size (i : ι) : ℕ := (c.place i).length

/-- A new token, at the end of a place. -/
def accept (j : ι) : Custody ι :=
  { next := c.next + 1, place := Function.update c.place j (c.place j ++ [c.next]) }

/-- The first token of `i` goes to `j`, among whose tokens `put` puts it; nothing happens if
there is none. -/
def moveBy (put : ℕ → List ℕ → List ℕ) (i j : ι) : Custody ι :=
  match c.place i with
  | [] => c
  | n :: ns =>
    { c with place := Function.update (Function.update c.place i ns) j (put n (c.place j)) }

/-- The first token of `i` goes to the end of `j`. -/
def move (i j : ι) : Custody ι := c.moveBy (fun n ns => ns ++ [n]) i j

/-! ### Places -/

theorem place_accept_self : (c.accept j).place j = c.place j ++ [c.next] := Function.update_self ..

theorem place_accept_of_ne (h : k ≠ j) : (c.accept j).place k = c.place k :=
  Function.update_of_ne h ..

section MoveBy

variable (put : ℕ → List ℕ → List ℕ)

theorem moveBy_nil (h : c.place i = []) : c.moveBy put i j = c := by
  unfold moveBy
  rw [h]

theorem moveBy_next : (c.moveBy put i j).next = c.next := by
  unfold moveBy
  split <;> rfl

theorem moveBy_src (h : c.place i = n :: ns) (hij : i ≠ j) : (c.moveBy put i j).place i = ns := by
  unfold moveBy
  rw [h]
  simp [hij]

theorem moveBy_dst (h : c.place i = n :: ns) : (c.moveBy put i j).place j = put n (c.place j) := by
  unfold moveBy
  rw [h]
  simp

theorem moveBy_of_ne (hi : k ≠ i) (hj : k ≠ j) : (c.moveBy put i j).place k = c.place k := by
  unfold moveBy
  split
  · rfl
  · simp [hi, hj]

end MoveBy

/-! ### Sizes -/

@[simp] theorem size_accept_self : (c.accept j).size j = c.size j + 1 := by
  simp [accept, size]

theorem size_accept_of_ne (h : k ≠ j) : (c.accept j).size k = c.size k :=
  congrArg List.length (c.place_accept_of_ne h)

theorem move_of_size_zero (h : c.size i = 0) : c.move i j = c :=
  c.moveBy_nil _ (List.length_eq_zero_iff.1 h)

theorem size_move_src (hij : i ≠ j) : (c.move i j).size i = c.size i - 1 := by
  unfold size
  cases h : c.place i with
  | nil => rw [move, c.moveBy_nil _ h, h]; rfl
  | cons n ns => rw [move, c.moveBy_src _ h hij]; rfl

theorem size_move_dst (hpos : 0 < c.size i) : (c.move i j).size j = c.size j + 1 := by
  obtain ⟨n, ns, h⟩ := List.exists_cons_of_length_pos hpos
  rw [size, move, c.moveBy_dst _ h, List.length_append]
  rfl

theorem size_move_of_ne (hi : k ≠ i) (hj : k ≠ j) : (c.move i j).size k = c.size k :=
  congrArg List.length (c.moveBy_of_ne _ hi hj)

/-! ### Every token in one place -/

/-- Every token that exists is in one place, and there once. -/
structure Ok : Prop where
  nodup : ∀ i, (c.place i).Nodup
  apart : ∀ i j n, n ∈ c.place i → n ∈ c.place j → i = j
  lt_iff : ∀ n, n < c.next ↔ ∃ i, n ∈ c.place i

omit [DecidableEq ι] in
theorem ok_empty : Ok ({} : Custody ι) where
  nodup _ := List.nodup_nil
  apart _ _ _ h := absurd h List.not_mem_nil
  lt_iff n := iff_of_false (Nat.not_lt_zero n) fun ⟨_, h⟩ => absurd h List.not_mem_nil

variable {c}

omit [DecidableEq ι] in
/-- A token that is somewhere exists. -/
theorem Ok.lt_next (h : c.Ok) (hi : n ∈ c.place i) : n < c.next := (h.lt_iff n).2 ⟨i, hi⟩

omit [DecidableEq ι] in
theorem Ok.not_mem (h : c.Ok) (hi : n ∈ c.place i) (hk : k ≠ i) : n ∉ c.place k :=
  fun hmem => hk (h.apart k i n hmem hi)

/-- A token that is in a place is there once and nowhere else. -/
theorem Ok.count_eq (h : c.Ok) (hi : n ∈ c.place i) (k : ι) :
    (c.place k).count n = if k = i then 1 else 0 := by
  split
  · next hk =>
    rw [hk]
    exact List.count_eq_one_of_mem (h.nodup i) hi
  · next hk => exact List.count_eq_zero.2 (h.not_mem hi hk)

theorem accept_ok (h : c.Ok) (j : ι) : (c.accept j).Ok := by
  have hfresh : ∀ k, c.next ∉ c.place k := fun k hk => lt_irrefl _ (h.lt_next hk)
  have hmem : ∀ k n, n ∈ (c.accept j).place k ↔ n ∈ c.place k ∨ k = j ∧ n = c.next := by
    intro k n
    by_cases hk : k = j
    · subst hk
      simp [place_accept_self]
    · simp [c.place_accept_of_ne hk, hk]
  refine ⟨fun k => ?_, fun k l n hk hl => ?_, fun n => ?_⟩
  · by_cases hk : k = j
    · subst hk
      rw [place_accept_self]
      exact (h.nodup k).append (List.nodup_singleton _) (by simpa using hfresh k)
    · rw [c.place_accept_of_ne hk]
      exact h.nodup k
  · rw [hmem] at hk hl
    rcases hk with hk | ⟨hkj, hkn⟩ <;> rcases hl with hl | ⟨hlj, hln⟩
    · exact h.apart k l n hk hl
    · exact absurd (hln ▸ hk) (hfresh k)
    · exact absurd (hkn ▸ hl) (hfresh l)
    · exact hkj.trans hlj.symm
  · change n < c.next + 1 ↔ _
    simp only [hmem, exists_or, exists_eq_left, ← h.lt_iff]
    omega

theorem moveBy_ok {put : ℕ → List ℕ → List ℕ} (hput : ∀ n ns, (put n ns).Perm (n :: ns))
    (h : c.Ok) (hij : i ≠ j) : (c.moveBy put i j).Ok := by
  cases hi : c.place i with
  | nil =>
    rw [c.moveBy_nil _ hi]
    exact h
  | cons m ms =>
    have hnodup : (m :: ms).Nodup := hi ▸ h.nodup i
    have hm : m ∈ c.place i := hi ▸ List.mem_cons_self
    have hmj : m ∉ c.place j := h.not_mem hm (Ne.symm hij)
    -- the token `m` is now in `j`, and the others are where they were
    have hmem : ∀ k n, n ∈ (c.moveBy put i j).place k ↔
        if n = m then k = j else n ∈ c.place k := by
      intro k n
      by_cases hk : k = j
      · subst hk
        rw [c.moveBy_dst put hi, (hput _ _).mem_iff, List.mem_cons]
        split <;> simp_all
      · by_cases hk' : k = i
        · subst hk'
          rw [c.moveBy_src put hi hij, hi]
          split
          · next hn => exact iff_of_false (hn ▸ (List.nodup_cons.1 hnodup).1) hk
          · next hn => simp [hn]
        · rw [c.moveBy_of_ne put hk' hk]
          split
          · next hn => exact iff_of_false (hn ▸ h.not_mem hm hk') hk
          · rfl
    refine ⟨fun k => ?_, fun k l n hk hl => ?_, fun n => ?_⟩
    · by_cases hk : k = j
      · subst hk
        rw [c.moveBy_dst put hi, (hput _ _).nodup_iff]
        exact List.nodup_cons.2 ⟨hmj, h.nodup k⟩
      · by_cases hk' : k = i
        · subst hk'
          rw [c.moveBy_src put hi hij]
          exact (List.nodup_cons.1 hnodup).2
        · rw [c.moveBy_of_ne put hk' hk]
          exact h.nodup k
    · rw [hmem] at hk hl
      split at hk
      · next hn =>
        rw [if_pos hn] at hl
        exact hk.trans hl.symm
      · next hn =>
        rw [if_neg hn] at hl
        exact h.apart k l n hk hl
    · rw [moveBy_next, h.lt_iff]
      simp only [hmem]
      split
      · next hn => exact iff_of_true ⟨i, hn ▸ hm⟩ ⟨j, rfl⟩
      · rfl

theorem move_ok (h : c.Ok) (hij : i ≠ j) : (c.move i j).Ok :=
  moveBy_ok (fun n ns => List.perm_append_singleton n ns) h hij

end Custody
