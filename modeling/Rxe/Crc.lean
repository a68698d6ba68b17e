/-
Cyclic redundancy checks, lowest bit first.

The remainder moves down bit by bit, and the polynomial is added when a bit falls out.  If the
polynomial has its highest bit set, no step loses information, so that a single byte that is
changed shows in the result.

* `crcByte` — what a byte does to the remainder, `crc` — what a list of bytes does;
* `crcByte_injective_left`, `crcByte_injective_right` — in the remainder and in the byte;
* `crc_map_ne` — two sequences of bytes that differ in one place.
-/
import Mathlib.Logic.Function.Iterate
import Mathlib.Tactic.Common

namespace Crc

variable {poly c c' : BitVec 32}

/-- One bit. -/
def bitStep (poly c : BitVec 32) : BitVec 32 :=
  if c.getLsbD 0 then (c >>> 1) ^^^ poly else c >>> 1

/-- One byte. -/
def crcByte (poly c : BitVec 32) (b : BitVec 8) : BitVec 32 :=
  (bitStep poly)^[8] (c ^^^ b.setWidth 32)

/-- A list of bytes. -/
def crc (poly c : BitVec 32) (l : List (BitVec 8)) : BitVec 32 := l.foldl (crcByte poly) c

/-- The bit that falls out becomes the highest one. -/
theorem bitStep_high (hpoly : poly.getLsbD 31) : (bitStep poly c).getLsbD 31 = c.getLsbD 0 := by
  unfold bitStep
  cases hlow : c.getLsbD 0 <;> simp [hpoly]

theorem bitStep_injective (hpoly : poly.getLsbD 31) : Function.Injective (bitStep poly) := by
  intro c c' h
  have hlow : c.getLsbD 0 = c'.getLsbD 0 := by
    rw [← bitStep_high hpoly, h, bitStep_high hpoly]
  have hrest : c >>> 1 = c' >>> 1 := by
    unfold bitStep at h
    rw [hlow] at h
    split at h
    · exact (BitVec.xor_left_inj _).1 h
    · exact h
  refine BitVec.eq_of_getLsbD_eq fun i _ => ?_
  cases i with
  | zero => exact hlow
  | succ i =>
    have hbit := congrArg (fun v => v.getLsbD i) hrest
    simpa only [BitVec.getLsbD_ushiftRight, Nat.add_comm 1] using hbit

theorem crcByte_injective_left (hpoly : poly.getLsbD 31) (b : BitVec 8) :
    Function.Injective (crcByte poly · b) := by
  intro c c' h
  exact (BitVec.xor_left_inj _).1 ((bitStep_injective hpoly).iterate 8 h)

theorem crcByte_injective_right (hpoly : poly.getLsbD 31) (c : BitVec 32) :
    Function.Injective (crcByte poly c) := by
  intro b b' h
  have hwide := (BitVec.xor_right_inj _).1 ((bitStep_injective hpoly).iterate 8 h)
  have hcut := congrArg (BitVec.setWidth 8) hwide
  simpa using hcut

theorem crc_injective (hpoly : poly.getLsbD 31) (l : List (BitVec 8)) :
    Function.Injective (crc poly · l) := by
  induction l with
  | nil => exact fun _ _ h => h
  | cons b l ih => exact fun _ _ h => crcByte_injective_left hpoly b (ih h)

theorem crc_append (l l' : List (BitVec 8)) : crc poly c (l ++ l') = crc poly (crc poly c l) l' :=
  List.foldl_append

/-- A byte that is changed shows in the result. -/
theorem crc_ne (hpoly : poly.getLsbD 31) (l l' : List (BitVec 8)) {b b' : BitVec 8} (hne : b ≠ b') :
    crc poly c (l ++ b :: l') ≠ crc poly c (l ++ b' :: l') := by
  intro h
  rw [crc_append, crc_append] at h
  exact hne (crcByte_injective_right hpoly _ (crc_injective hpoly l' h))

/-- Two sequences that differ in one place. -/
theorem crc_map_ne (hpoly : poly.getLsbD 31) {f g : ℕ → BitVec 8} {a n i : ℕ} (hge : a ≤ i)
    (hlt : i < a + n) (hsame : ∀ j, j ≠ i → f j = g j) (hne : f i ≠ g i) :
    crc poly c ((List.range' a n).map f) ≠ crc poly c ((List.range' a n).map g) := by
  have hsplit : List.range' a n = List.range' a (i - a) ++
      i :: List.range' (i + 1) (a + n - i - 1) := by
    rw [show n = i - a + (a + n - i - 1 + 1) by omega, ← List.range'_append_1,
      show a + (i - a) = i by omega, List.range'_succ]
    congr 4
    omega
  have hpart : ∀ b k, (∀ j ∈ List.range' b k, j ≠ i) →
      (List.range' b k).map f = (List.range' b k).map g :=
    fun b k h => List.map_congr_left fun j hj => hsame j (h j hj)
  rw [hsplit, List.map_append, List.map_append, List.map_cons, List.map_cons,
    hpart a _ (fun j hj => by have := List.mem_range'_1.1 hj; omega),
    hpart (i + 1) _ (fun j hj => by have := List.mem_range'_1.1 hj; omega)]
  exact crc_ne hpoly _ _ hne

end Crc
