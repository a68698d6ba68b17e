/-
The invariant CRC (`rxe_icrc.c`).

The ICRC is computed over the headers with the fields masked that change on the way, and over
what follows them.  Where the headers end is taken from the length in the opcode table, where
the payload starts from its offset there.

* `rxeIcrcHdr`, `rxeIcrcPkt` — the driver, on the bytes from `pkt->hdr` on;
* `icrcOpcode` — the opcodes with which the driver computes an ICRC;
* `IcrcExact` — it ignores the fields that change, and nothing else;
* `icrc_exact` — that holds for these opcodes, with and without the outer headers.
-/
import Rxe.Crc
import Rxe.Opcode

namespace Rxe

open Crc

/-! ### The driver -/

/-- Which headers stand before the BTH (`RXE_LRH_MASK`, `RXE_GRH_MASK`). -/
structure IcrcLayout where
  lrh : Bool
  grh : Bool

/-- `length` and `offset[RXE_PAYLOAD]` of an entry of `rxe_opcode`, with at least a BTH. -/
structure IcrcOpcode where
  length : ℕ
  payload : ℕ
  bth : 12 ≤ length

/-- The entries of `rxe_opcode` for the opcodes that `rxe_icrc_pkt` is called with: those of the
packets that `read_reply`, `send_ack` and `send_atomic_ack` have prepared. -/
def icrcOpcode : Opcode → Option IcrcOpcode
  -- BTH and AETH
  | .rcRdmaReadResponseFirst | .rcRdmaReadResponseLast | .rcRdmaReadResponseOnly
  | .rcAcknowledge => some ⟨12 + 4, 12 + 4, by decide⟩
  | .rcRdmaReadResponseMiddle => some ⟨12, 12, by decide⟩
  -- BTH, AETH and AtomicAckETH
  | .rcAtomicAcknowledge => some ⟨12 + 8 + 4, 12 + 8 + 4, by decide⟩
  | _ => none

/-- `CRCPOLY_LE` -/
def crcpolyLe : BitVec 32 := 0xedb88320#32

/-- `crc32_le` -/
def crc32Le (crc : BitVec 32) (l : List (BitVec 8)) : BitVec 32 := Crc.crc crcpolyLe crc l

def IcrcLayout.grhOffset (L : IcrcLayout) : ℕ := if L.lrh then 8 else 0

def IcrcLayout.bthOffset (L : IcrcLayout) : ℕ := L.grhOffset + if L.grh then 40 else 0

theorem IcrcLayout.grhOffset_le (L : IcrcLayout) : L.grhOffset ≤ L.bthOffset := Nat.le_add_right ..

/-- A byte that is masked as a whole. -/
def IcrcLayout.variant (L : IcrcLayout) (j : ℕ) : Bool :=
  (L.grh && (j = L.grhOffset + 1 || j = L.grhOffset + 2 || j = L.grhOffset + 3 ||
    j = L.grhOffset + 7)) || j = L.bthOffset + 4

/-- A byte of `tmp`. -/
def IcrcLayout.masked (L : IcrcLayout) (hdr : ℕ → BitVec 8) (j : ℕ) : BitVec 8 :=
  if L.variant j then 0xff#8
  else if L.grh && j = L.grhOffset then hdr j ||| 0x0f#8
  else hdr j

/-- The bytes over which `rxe_icrc_hdr` computes the CRC. -/
def icrcHdrBytes (L : IcrcLayout) (op : IcrcOpcode) (hdr : ℕ → BitVec 8) : List (BitVec 8) :=
  (List.range' L.grhOffset (L.bthOffset + 12 - L.grhOffset)).map (L.masked hdr) ++
    (List.range' (L.bthOffset + 12) (op.length - 12)).map hdr

/-- `rxe_icrc_hdr` -/
def rxeIcrcHdr (L : IcrcLayout) (op : IcrcOpcode) (hdr : ℕ → BitVec 8) : BitVec 32 :=
  crc32Le 0xdebb20e3#32 (icrcHdrBytes L op hdr)

/-- The bytes at `payload_addr`. -/
def icrcPayload (L : IcrcLayout) (op : IcrcOpcode) (paylen : ℕ) (hdr : ℕ → BitVec 8) :
    List (BitVec 8) :=
  (List.range' (L.bthOffset + op.payload) (paylen - op.length - 4)).map hdr

/-- `rxe_icrc_pkt` -/
def rxeIcrcPkt (L : IcrcLayout) (op : IcrcOpcode) (paylen : ℕ) (hdr : ℕ → BitVec 8) : BitVec 32 :=
  ~~~ crc32Le (rxeIcrcHdr L op hdr) (icrcPayload L op paylen hdr)

/-! ### What it is meant to do -/

/-- What of a byte must not change on the way: nothing of a variant byte, and of the first byte
of the GRH only the version. -/
def IcrcLayout.fixed (L : IcrcLayout) (j : ℕ) (b : BitVec 8) : BitVec 8 :=
  if L.variant j then 0 else if L.grh && j = L.grhOffset then b &&& 0xf0#8 else b

/-- For packets with `size` bytes of payload and pad: those that differ only in the LRH and in
what may change have the same ICRC; those that differ in one byte, and there not only in what
may change, have different ones. -/
def IcrcExact (L : IcrcLayout) (op : IcrcOpcode) (size : ℕ) : Prop :=
  ∀ hdr hdr' : ℕ → BitVec 8,
    ((∀ j, L.grhOffset ≤ j → L.fixed j (hdr j) = L.fixed j (hdr' j)) →
      rxeIcrcPkt L op (op.length + size + 4) hdr = rxeIcrcPkt L op (op.length + size + 4) hdr') ∧
    ∀ i, L.grhOffset ≤ i → i < L.bthOffset + op.length + size → (∀ j, j ≠ i → hdr j = hdr' j) →
      L.fixed i (hdr i) ≠ L.fixed i (hdr' i) →
      rxeIcrcPkt L op (op.length + size + 4) hdr ≠ rxeIcrcPkt L op (op.length + size + 4) hdr'

section Exact

variable {L : IcrcLayout} {op : IcrcOpcode} {size : ℕ} {hdr hdr' : ℕ → BitVec 8}

/-- The mask keeps exactly what must not change. -/
theorem masked_eq_iff (hdr hdr' : ℕ → BitVec 8) (j : ℕ) :
    L.masked hdr j = L.masked hdr' j ↔ L.fixed j (hdr j) = L.fixed j (hdr' j) := by
  have hnibble : ∀ a b : BitVec 8, a ||| 0x0f#8 = b ||| 0x0f#8 ↔ a &&& 0xf0#8 = b &&& 0xf0#8 := by
    decide +kernel
  unfold IcrcLayout.masked IcrcLayout.fixed
  split
  · exact iff_of_true rfl rfl
  · split
    · exact hnibble _ _
    · exact Iff.rfl

theorem masked_behind {j : ℕ} (hj : L.bthOffset + 12 ≤ j) : L.masked hdr j = hdr j := by
  have hgrh := L.grhOffset_le
  have hvariant : L.variant j = false := by
    simp only [IcrcLayout.variant, Bool.or_eq_false_iff, Bool.and_eq_false_iff,
      decide_eq_false_iff_not]
    omega
  rw [IcrcLayout.masked, hvariant, if_neg Bool.false_ne_true, if_neg]
  simp only [Bool.and_eq_true, decide_eq_true_eq, not_and]
  omega

theorem rxeIcrcPkt_eq (paylen : ℕ) : rxeIcrcPkt L op paylen hdr =
    ~~~ crc32Le 0xdebb20e3#32 (icrcHdrBytes L op hdr ++ icrcPayload L op paylen hdr) := by
  rw [rxeIcrcPkt, rxeIcrcHdr, crc32Le, crc32Le, crc32Le, crc_append]

theorem icrcBytes_eq (h : op.payload = op.length) :
    icrcHdrBytes L op hdr ++ icrcPayload L op (op.length + size + 4) hdr =
      (List.range' L.grhOffset (L.bthOffset + op.length + size - L.grhOffset)).map
        (L.masked hdr) := by
  have hgrh := L.grhOffset_le
  have hbth := op.bth
  have hbehind : ∀ a n, L.bthOffset + 12 ≤ a →
      (List.range' a n).map hdr = (List.range' a n).map (L.masked hdr) := by
    intro a n ha
    refine List.map_congr_left fun j hj => (masked_behind ?_).symm
    have := (List.mem_range'_1.1 hj).1
    omega
  have hsize : op.length + size + 4 - op.length - 4 = size := by omega
  have hpay : icrcPayload L op (op.length + size + 4) hdr =
      (List.range' (L.bthOffset + op.length) size).map (L.masked hdr) := by
    rw [icrcPayload, hsize, h, hbehind _ _ (by omega)]
  rw [icrcHdrBytes, hpay, hbehind _ _ (Nat.le_refl _), ← List.map_append, ← List.map_append]
  congr 1
  rw [show L.bthOffset + 12 = L.grhOffset + (L.bthOffset + 12 - L.grhOffset) by omega,
    show L.grhOffset + (L.bthOffset + 12 - L.grhOffset) - L.grhOffset =
      L.bthOffset + 12 - L.grhOffset by omega, List.range'_append_1,
    show L.bthOffset + op.length =
      L.grhOffset + (L.bthOffset + 12 - L.grhOffset + (op.length - 12)) by omega,
    List.range'_append_1]
  congr 1
  omega

end Exact

theorem icrcOpcode_payload {opcode : Opcode} {op : IcrcOpcode} (h : icrcOpcode opcode = some op) :
    op.payload = op.length := by
  cases opcode <;> cases h <;> rfl

/-- For every packet that the driver computes an ICRC for, the ICRC ignores exactly what may
change on the way. -/
theorem icrc_exact (L : IcrcLayout) (opcode : Opcode) (op : IcrcOpcode)
    (hop : icrcOpcode opcode = some op) (size : ℕ) : IcrcExact L op size := by
  have hgrh := L.grhOffset_le
  have hbytes := icrcOpcode_payload hop
  intro hdr hdr'
  rw [rxeIcrcPkt_eq, rxeIcrcPkt_eq, icrcBytes_eq hbytes, icrcBytes_eq hbytes]
  constructor
  · intro hagree
    congr 2
    refine List.map_congr_left fun j hj => (masked_eq_iff hdr hdr' j).2 (hagree j ?_)
    exact (List.mem_range'_1.1 hj).1
  · -- one masked byte differs, and the CRC is injective in each byte
    intro i hge hlt hsame hdiff hcrc
    refine crc_map_ne (by decide) hge (by omega) (fun j hj => ?_) (fun h => ?_)
      (BitVec.not_inj.1 hcrc)
    · rw [masked_eq_iff, hsame j hj]
    · exact hdiff ((masked_eq_iff hdr hdr' i).1 h)

/-- An atomic acknowledgement with both outer headers: two that differ in the last byte of the
original value have different ICRCs. -/
theorem icrc_exact_atomic : ∃ op, icrcOpcode .rcAtomicAcknowledge = some op ∧
    IcrcExact ⟨true, true⟩ op 0 ∧
    rxeIcrcPkt ⟨true, true⟩ op 28 (fun _ => 0) ≠
      rxeIcrcPkt ⟨true, true⟩ op 28 (fun j => if j = 71 then 1 else 0) := by
  have hexact := icrc_exact ⟨true, true⟩ .rcAtomicAcknowledge _ rfl 0
  refine ⟨_, rfl, hexact, ?_⟩
  refine (hexact _ _).2 71 (by decide) (by decide) (fun j hj => ?_) (by decide)
  rw [if_neg hj]

end Rxe
