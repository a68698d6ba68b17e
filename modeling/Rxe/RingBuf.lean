/-
Ring buffers seen from their consumer.

A ring of `slots` cells is kept as the list `live` of the queued cells, from the
consumer to the producer, followed by the list `free` of the remaining cells, from
the producer round to the consumer.  An index into the ring is its distance from
the consumer, so retiring the head lowers every index by one modulo `slots`
(`rebase`).  Free cells keep their old contents: `push` derives the new element
from the cell it overwrites.
-/
import Mathlib.Data.List.Basic
import Mathlib.Logic.Function.Iterate
import Mathlib.Tactic.Common

/-- A ring buffer: queued cells, then the cells in which the producer writes next. -/
structure RingBuf (α : Type*) where
  live : List α
  free : List α
  deriving DecidableEq, Repr

namespace RingBuf

variable {α : Type*}

/-- Number of cells of the buffer. -/
def slots (q : RingBuf α) : ℕ := q.live.length + q.free.length

/-- One cell is never used: the ring is full when a single free cell is left. -/
def full (q : RingBuf α) : Bool := q.free.length ≤ 1

/-- The cell at distance `i` from the consumer. -/
def get? (q : RingBuf α) (i : ℕ) : Option α := (q.live ++ q.free)[i]?

/-- Change the cell at distance `i` from the consumer. -/
def modify (q : RingBuf α) (i : ℕ) (f : α → α) : RingBuf α :=
  if i < q.live.length then { q with live := q.live.modify i f }
  else { q with free := q.free.modify (i - q.live.length) f }

/-- The producer writes its cell and advances. -/
def push (q : RingBuf α) (f : α → α) : RingBuf α :=
  match q.free with
  | [] => q
  | c :: cs => ⟨q.live ++ [f c], cs⟩

/-- The consumer advances; the retired cell is the last to be written again. -/
def pop (q : RingBuf α) : RingBuf α :=
  match q.live with
  | [] => q
  | c :: cs => ⟨cs, q.free ++ [c]⟩

/-- New distance from the consumer of the cell at distance `i`, after the consumer
advanced. -/
def rebase (q : RingBuf α) (i : ℕ) : ℕ := (i + q.slots - 1) % q.slots

@[simp] theorem modify_live_length (q : RingBuf α) (i : ℕ) (f : α → α) :
    (q.modify i f).live.length = q.live.length := by
  unfold modify
  split <;> simp

@[simp] theorem modify_slots (q : RingBuf α) (i : ℕ) (f : α → α) :
    (q.modify i f).slots = q.slots := by
  unfold modify slots
  split <;> simp

variable {q : RingBuf α} {i : ℕ} {c : α} {cs : List α} {a : α} {f : α → α}

/-- A ring that is not full has room for one cell and another one after it. -/
theorem free_of_room (h : q.full = false) : ∃ slot free, q.free = slot :: free ∧ free ≠ [] := by
  have hlen : ¬ q.free.length ≤ 1 := of_decide_eq_false h
  cases hfree : q.free with
  | nil => simp [hfree] at hlen
  | cons slot free => exact ⟨slot, free, rfl, fun hnil => by simp [hfree, hnil] at hlen⟩

theorem push_live (f : α → α) (h : q.free = c :: cs) : q.push f = ⟨q.live ++ [f c], cs⟩ := by
  rw [push, h]

theorem pop_live (h : q.live = c :: cs) : q.pop = ⟨cs, q.free ++ [c]⟩ := by
  rw [pop, h]

theorem live_pop (q : RingBuf α) : q.pop.live = q.live.tail := by
  unfold pop
  split
  · next h => rw [h]; rfl
  · next h => rw [h]; rfl

theorem live_iterate_pop (n : ℕ) : ∀ q : RingBuf α, (Nat.iterate pop n q).live = q.live.drop n := by
  induction n with
  | zero => exact fun q => rfl
  | succ n ih =>
    intro q
    rw [Function.iterate_succ_apply, ih, live_pop, List.drop_tail]

@[simp] theorem push_slots (q : RingBuf α) (f : α → α) : (q.push f).slots = q.slots := by
  unfold push slots
  split <;> simp_all
  omega

@[simp] theorem pop_slots (q : RingBuf α) : q.pop.slots = q.slots := by
  unfold pop slots
  split <;> simp_all
  omega

theorem get?_of_lt (h : i < q.live.length) : q.get? i = q.live[i]? := by
  rw [get?, List.getElem?_append_left h]

theorem live_of_get? (hle : i ≤ q.live.length) (hne : i ≠ q.live.length) (h : q.get? i = some a) :
    q.live[i]? = some a := by
  rwa [get?_of_lt (by omega)] at h

theorem get?_push_of_gt (h : q.free = c :: cs) (hi : q.live.length < i) :
    get? ⟨q.live ++ [a], cs⟩ i = q.get? i := by
  obtain ⟨k, hk⟩ : ∃ k, i - q.live.length = k + 1 := ⟨i - q.live.length - 1, by omega⟩
  have hskip : ∀ l : List α, (q.live ++ l)[i]? = l[k + 1]? := by
    intro l
    rw [List.getElem?_append_right (Nat.le_of_lt hi), hk]
  show (q.live ++ [a] ++ cs)[i]? = (q.live ++ q.free)[i]?
  rw [List.append_assoc, hskip, hskip, h]
  rfl

theorem modify_of_lt (f : α → α) (h : i < q.live.length) :
    q.modify i f = { q with live := q.live.modify i f } := by
  rw [modify, if_pos h]

theorem get?_head {l : List α} (h : q.live = a :: l) : q.get? 0 = some a := by
  rw [get?_of_lt (by simp [h]), h]
  rfl

theorem modify_head_live {l : List α} (f : α → α) (h : q.live = a :: l) :
    (q.modify 0 f).live = f a :: l := by
  rw [modify_of_lt f (by simp [h])]
  rw [h]
  rfl

theorem modify_map_live {β : Type*} (q : RingBuf α) (i : ℕ) {g : α → β} (h : ∀ a, g (f a) = g a) :
    (q.modify i f).live.map g = q.live.map g := by
  unfold modify
  split
  · refine List.ext_getElem? fun j => ?_
    rw [List.getElem?_map, List.getElem?_map, List.getElem?_modify]
    cases q.live[j]? with
    | none => rfl
    | some a => by_cases hij : i = j <;> simp [hij, h]
  · rfl

theorem modify_map_live_of_get? {β : Type*} {g : α → β} (h : q.get? i = some a)
    (hg : g (f a) = g a) :
    (q.modify i f).live.map g = q.live.map g := by
  unfold modify
  split
  · next hi =>
    rw [get?_of_lt hi] at h
    refine List.ext_getElem? fun j => ?_
    rw [List.getElem?_map, List.getElem?_map, List.getElem?_modify]
    by_cases hij : i = j
    · subst hij
      rw [h]
      simp [hg]
    · simp [hij]
  · rfl

theorem live_getElem?_modify (q : RingBuf α) (i j : ℕ) (f : α → α) :
    (q.modify i f).live[j]? = if i = j then (q.live[j]?).map f else q.live[j]? := by
  unfold modify
  split
  · rw [List.getElem?_modify]
    by_cases hij : i = j <;> simp [hij]
  · next hi =>
    by_cases hij : i = j
    · have hnone : q.live[j]? = none := List.getElem?_eq_none (by omega)
      rw [if_pos hij, hnone]
      rfl
    · rw [if_neg hij]

theorem get?_modify (q : RingBuf α) (i j : ℕ) (f : α → α) :
    (q.modify i f).get? j = if i = j then (q.get? j).map f else q.get? j := by
  by_cases hj : j < q.live.length
  · rw [get?_of_lt (by simpa using hj), get?_of_lt hj, live_getElem?_modify]
  · unfold get?
    rw [List.getElem?_append_right (by simpa using Nat.le_of_not_lt hj),
      List.getElem?_append_right (Nat.le_of_not_lt hj), modify_live_length]
    unfold modify
    split
    · rw [if_neg (by omega)]
    · rw [List.getElem?_modify]
      by_cases hij : i = j
      · simp [hij]
      · rw [if_neg hij]
        simp [show ¬ i - q.live.length = j - q.live.length by omega]

/-- Writing the cell of the producer leaves the queue as it is. -/
theorem modify_producer (q : RingBuf α) (f : α → α) :
    (q.modify q.live.length f).live = q.live ∧ (q.modify q.live.length f).full = q.full := by
  unfold modify full
  rw [if_neg (Nat.lt_irrefl _), List.length_modify]
  exact ⟨rfl, rfl⟩

theorem push_id_modify (q : RingBuf α) (f : α → α) :
    (q.modify q.live.length f).push id = q.push f := by
  obtain ⟨live, free⟩ := q
  unfold modify push
  rw [if_neg (Nat.lt_irrefl _), Nat.sub_self]
  cases free with
  | nil => rfl
  | cons c cs => rfl

theorem mem_live_modify (h : a ∈ (q.modify i f).live) :
    a ∈ q.live ∨ ∃ b ∈ q.live, q.get? i = some b ∧ f b = a := by
  obtain ⟨j, hj⟩ := List.mem_iff_getElem?.1 h
  rw [live_getElem?_modify] at hj
  split at hj
  · next hij =>
    obtain ⟨b, hb, rfl⟩ := Option.map_eq_some_iff.1 hj
    have hlt := (List.getElem?_eq_some_iff.1 hb).1
    exact Or.inr ⟨b, List.mem_of_getElem? hb, by rw [hij, get?_of_lt hlt, hb], rfl⟩
  · exact Or.inl (List.mem_of_getElem? hj)

theorem mem_free_modify (h : a ∈ (q.modify i f).free) :
    a ∈ q.free ∨ ∃ b ∈ q.free, q.get? i = some b ∧ f b = a := by
  unfold modify at h
  split at h
  · exact Or.inl h
  · next hi =>
    obtain ⟨j, hj⟩ := List.mem_iff_getElem?.1 h
    rw [List.getElem?_modify] at hj
    obtain ⟨b, hb, rfl⟩ := Option.map_eq_some_iff.1 hj
    split
    · next hij =>
      have hget : q.get? i = some b := by
        rw [get?, List.getElem?_append_right (Nat.le_of_not_lt hi), hij, hb]
      exact Or.inr ⟨b, List.mem_of_getElem? hb, hget, rfl⟩
    · exact Or.inl (List.mem_of_getElem? hb)

/-- Inside the queue, rebasing is the predecessor. -/
theorem rebase_succ (h : i < q.slots) : q.rebase (i + 1) = i := by
  rw [rebase, show i + 1 + q.slots - 1 = i + q.slots by omega, Nat.add_mod_right,
    Nat.mod_eq_of_lt h]

/-- The index of the retired cell itself wraps to the last cell. -/
theorem rebase_zero (h : 0 < q.slots) : q.rebase 0 = q.slots - 1 := by
  rw [rebase, Nat.zero_add, Nat.mod_eq_of_lt (by omega)]

end RingBuf
