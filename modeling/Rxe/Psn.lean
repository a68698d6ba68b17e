/-
Packet sequence numbers (`rxe_verbs.h`, `rxe_hdr.h`).

PSNs are 24-bit counters.  `psnCompare` is the driver's comparison; it is the
serial-number distance of `Serial.diff` scaled by `2 ^ 8` (`psnCompare_eq`), so
for two PSNs of a window of `2 ^ 23` consecutive values it is the distance of
their positions in the window (`psnCompare_window`).
-/
import Mathlib.Order.RelIso.Basic
import Rxe.Serial

namespace Rxe

/-- `BTH_PSN_MASK + 1`. -/
def psnMod : ℕ := 2 ^ 24

/-- `psn & BTH_PSN_MASK` -/
def psnMask (psn : ℕ) : ℕ := psn % psnMod

/-- `(a - b) & BTH_PSN_MASK` -/
def psnSub (a b : ℕ) : ℕ := (a + (psnMod - b % psnMod)) % psnMod

/-- `psn_compare`: the `s32` read of the `u32` value `(a - b) << 8`. -/
def psnCompare (a b : ℕ) : ℤ := Int.bmod (((a : ℤ) - b) * 2 ^ 8) (2 ^ 32)

theorem psnMask_lt (a : ℕ) : psnMask a < psnMod := Nat.mod_lt a (by decide)

theorem psnMask_of_lt {a : ℕ} (h : a < psnMod) : psnMask a = a := Nat.mod_eq_of_lt h

/-- Masking before an increment changes nothing. -/
theorem psnMask_add (a b : ℕ) : psnMask (psnMask a + b) = psnMask (a + b) := by
  rw [psnMask, psnMask, psnMask, Nat.mod_add_mod]

/-- The PSN after the PSN before `a`. -/
theorem psnMask_psnSub_one (a : ℕ) : psnMask (psnSub a 1 + 1) = psnMask a := by
  rw [psnMask, psnMask, psnSub, psnMod]
  omega

theorem psnCompare_eq (a b : ℕ) : psnCompare a b = 2 ^ 8 * Serial.diff psnMod a b := by
  rw [psnCompare, Serial.diff, psnMod, Int.bmod_eq_emod, Int.bmod_eq_emod]
  split <;> split <;> omega

theorem psnCompare_lt_zero {a b : ℕ} : psnCompare a b < 0 ↔ Serial.diff psnMod a b < 0 := by
  rw [psnCompare_eq]
  omega

/-- `psn_compare` is zero exactly on PSNs that agree in their low 24 bits. -/
theorem psnCompare_eq_zero {a b : ℕ} : psnCompare a b = 0 ↔ psnMask a = psnMask b := by
  have h := Serial.diff_eq_zero_iff (m := psnMod) (a := a) (b := b)
  rw [psnCompare_eq, psnMask, psnMask]
  omega

theorem psnCompare_self (a : ℕ) : psnCompare a a = 0 := psnCompare_eq_zero.2 rfl

theorem psnCompare_mask_left (a b : ℕ) : psnCompare (psnMask a) b = psnCompare a b := by
  rw [psnCompare_eq, psnCompare_eq, psnMask, Int.natCast_mod, Serial.diff_emod_left]

/-- A PSN comes before the next one. -/
theorem psnCompare_succ (a : ℕ) : psnCompare a (psnMask (a + 1)) < 0 := by
  rw [psnCompare_lt_zero, psnMask, Int.natCast_mod, Serial.diff_emod_right,
    Serial.diff_of_window (by rw [psnMod]; push_cast; omega) (by rw [psnMod]; push_cast; omega)]
  push_cast
  omega

/-! ### The comparison on the driver's words -/

/-- `psn_compare` on `u32` values: the shift drops the top byte of the wrapped difference. -/
def psnCompareU32 (psnA psnB : BitVec 32) : ℤ := ((psnA - psnB) <<< 8).toInt

theorem psnCompareU32_eq (a b : BitVec 32) :
    psnCompareU32 a b = psnCompare a.toNat b.toNat := by
  rw [psnCompareU32, psnCompare, BitVec.toInt_shiftLeft, BitVec.toNat_sub, Nat.shiftLeft_eq,
    Int.bmod_eq_emod, Int.bmod_eq_emod]
  push_cast
  split <;> split <;> omega

/-- Inside one window the comparison is the distance of the positions in it. -/
theorem psnCompare_window {base a b : ℕ} (ha : psnSub a base < 2 ^ 23)
    (hb : psnSub b base < 2 ^ 23) :
    psnCompare a b = 2 ^ 8 * ((psnSub a base : ℤ) - psnSub b base) := by
  rw [psnCompare_eq, Serial.diff, Int.bmod_eq_emod]
  unfold psnSub psnMod at *
  split <;> omega

/-- `psn_compare` is the order of serial numbers: it sees the low 24 bits only, its sign is
that of the signed distance, on words of one window it is the order of their positions, and
a common offset changes nothing. -/
theorem psn_compare_serial :
    (∀ a b a' b' : BitVec 32, psnMask a.toNat = psnMask a'.toNat →
      psnMask b.toNat = psnMask b'.toNat → psnCompareU32 a b = psnCompareU32 a' b') ∧
    (∀ a b : BitVec 32, ∃ d : ℤ, d ≡ a.toNat - b.toNat [ZMOD 2 ^ 24] ∧ -2 ^ 23 ≤ d ∧
      d < 2 ^ 23 ∧ (psnCompareU32 a b).sign = d.sign) ∧
    (∀ (base : ℕ) (S : Set (BitVec 32)), (∀ w ∈ S, psnSub w.toNat base < 2 ^ 23) →
      (∀ v ∈ S, ∀ w ∈ S,
        (psnCompareU32 v w < 0 ↔ psnSub v.toNat base < psnSub w.toNat base) ∧
        (psnCompareU32 v w = 0 ↔ psnMask v.toNat = psnMask w.toNat)) ∧
      (S.InjOn (fun w => psnMask w.toNat) →
        IsStrictTotalOrder S fun v w => psnCompareU32 v w < 0)) ∧
    ∀ a b k : BitVec 32, psnCompareU32 (a + k) (b + k) = psnCompareU32 a b := by
  refine ⟨fun a b a' b' ha hb => ?_, fun a b => ?_, fun base S hS => ?_, fun a b k => ?_⟩
  · unfold psnMask psnMod at ha hb
    rw [psnCompareU32_eq, psnCompareU32_eq, psnCompare_eq, psnCompare_eq, Serial.diff,
      Serial.diff, psnMod, Int.bmod_eq_emod, Int.bmod_eq_emod]
    split <;> split <;> omega
  · refine ⟨Serial.diff psnMod a.toNat b.toNat, Int.bmod_emod, Int.le_bmod (by decide),
      Int.bmod_lt (by decide), ?_⟩
    rw [psnCompareU32_eq, psnCompare_eq, Int.sign_mul]
    exact one_mul _
  · have hlt (v w : S) : psnSub v.1.toNat base < psnSub w.1.toNat base ↔
        psnCompareU32 v w < 0 := by
      rw [psnCompareU32_eq, psnCompare_window (hS v v.2) (hS w w.2)]
      omega
    have hzero (v w : BitVec 32) : psnCompareU32 v w = 0 ↔ psnMask v.toNat = psnMask w.toNat := by
      rw [psnCompareU32_eq, psnCompare_eq_zero]
    refine ⟨fun v hv w hw => ⟨(hlt ⟨v, hv⟩ ⟨w, hw⟩).symm, hzero v w⟩, fun hinj => ?_⟩
    -- the positions embed the words of the window into the natural numbers
    have hpos : Function.Injective fun w : S => psnSub w.1.toNat base := by
      intro v w h
      refine Subtype.ext (hinj v.2 w.2 ((hzero v w).1 ?_))
      rw [psnCompareU32_eq, psnCompare_window (hS v v.2) (hS w w.2)]
      exact mul_eq_zero_of_right _ (sub_eq_zero.2 (congrArg Nat.cast h))
    exact RelEmbedding.isStrictTotalOrder (s := (· < ·)) ⟨⟨_, hpos⟩, fun {v w} => hlt v w⟩
  · have hsub : a + k - (b + k) = a - b := by bv_omega
    rw [psnCompareU32, hsub, psnCompareU32]

/-- A window past `2 ^ 24`, one of the words with a set top byte. -/
theorem psn_compare_serial_wrap : psnCompareU32 0xfffffe 0x7f000003 < 0 :=
  ((psn_compare_serial.2.2.1 0xfffff0 {0xfffffe, 0x7f000003} (by simp [psnSub, psnMod])).1
    _ (by simp) _ (by simp)).1.2 (by decide)

end Rxe
