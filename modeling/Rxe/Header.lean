/-
Reading the headers of a packet (`rxe_hdr.h`, `rxe_opcode.c`).

Where an extended header starts depends on the opcode alone, through the `offset` column of
the table `rxe_opcode`.  `PktInfo.toPkt` collects what the accessors return: the fields of
the base header, the extended headers the opcode carries, and the payload.
-/
import Rxe.Recv

namespace Rxe

/-! ### The offset column of the opcode table

For the opcodes of RC, UC and UD; an entry the table leaves out is 0. -/

/-- `rxe_opcode[code].offset[RXE_RETH]` -/
def rxeOpcodeReth (code : ℕ) : ℕ := if code ∈ [6, 10, 11, 12, 38, 42, 43] then 12 else 0

/-- `rxe_opcode[code].offset[RXE_IMMDT]` -/
def rxeOpcodeImmdt (code : ℕ) : ℕ :=
  if code ∈ [3, 5, 9, 35, 37, 41] then 12
  else if code ∈ [11, 43] then 28
  else if code = 101 then 20
  else 0

/-- `rxe_opcode[code].offset[RXE_AETH]` -/
def rxeOpcodeAeth (code : ℕ) : ℕ := if code ∈ [13, 15, 16, 17, 18] then 12 else 0

/-- `rxe_opcode[code].offset[RXE_ATMACK]` -/
def rxeOpcodeAtmack (code : ℕ) : ℕ := if code = 18 then 16 else 0

/-- `rxe_opcode[code].offset[RXE_ATMETH]` -/
def rxeOpcodeAtmeth (code : ℕ) : ℕ := if code ∈ [19, 20] then 12 else 0

/-- `rxe_opcode[code].offset[RXE_IETH]` -/
def rxeOpcodeIeth (code : ℕ) : ℕ := if code ∈ [22, 23] then 12 else 0

namespace PktInfo

variable (pkt : PktInfo)

/-! ### Accessors -/

def bthSe : Bool := 0x80 ≤ pkt.bthFlags
def bthAck : Bool := 0x80 ≤ (pkt.hdr (pkt.offset + 8)).toNat

def rethVa : ℕ := beBytes pkt.hdr (pkt.offset + rxeOpcodeReth pkt.opcode) 8
def rethRkey : ℕ := beBytes pkt.hdr (pkt.offset + rxeOpcodeReth pkt.opcode + 8) 4
def rethLen : ℕ := beBytes pkt.hdr (pkt.offset + rxeOpcodeReth pkt.opcode + 12) 4

def atmethVa : ℕ := beBytes pkt.hdr (pkt.offset + rxeOpcodeAtmeth pkt.opcode) 8
def atmethRkey : ℕ := beBytes pkt.hdr (pkt.offset + rxeOpcodeAtmeth pkt.opcode + 8) 4
def atmethSwapAdd : ℕ := beBytes pkt.hdr (pkt.offset + rxeOpcodeAtmeth pkt.opcode + 12) 8
def atmethComp : ℕ := beBytes pkt.hdr (pkt.offset + rxeOpcodeAtmeth pkt.opcode + 20) 8

def aethSyn : ℕ := (pkt.hdr (pkt.offset + rxeOpcodeAeth pkt.opcode)).toNat
def aethMsn : ℕ := beBytes pkt.hdr (pkt.offset + rxeOpcodeAeth pkt.opcode) 4 % 2 ^ 24
def atmackOrig : ℕ := beBytes pkt.hdr (pkt.offset + rxeOpcodeAtmack pkt.opcode) 8

/-- `immdt_imm`, which leaves the bytes in network order. -/
def immdtImm : ℕ := beBytes pkt.hdr (pkt.offset + rxeOpcodeImmdt pkt.opcode) 4

def iethRkey : ℕ := beBytes pkt.hdr (pkt.offset + rxeOpcodeIeth pkt.opcode) 4
def dethSqp : ℕ := beBytes pkt.hdr (pkt.offset + rxeOpcodeDeth pkt.opcode + 4) 4 % 2 ^ 24

/-- Where `payload_addr` points. -/
def payloadAddr : ℕ := pkt.offset + rxeOpcodePayload pkt.opcode

/-- The bytes from `payload_addr` on, `payload_size` of them. -/
def payload : List UInt8 :=
  (List.range pkt.payloadSize.toNat).map fun i => pkt.hdr (pkt.payloadAddr + i)

/-- What the accessors say about a packet. -/
def toPkt : Pkt :=
  let mask := rxeOpcodeMask (opcodeOf pkt.opcode)
  { opcode := opcodeOf pkt.opcode
    psn := pkt.psn
    se := pkt.bthSe
    pad := pkt.bthPad
    pkey := pkt.bthPkey
    qpn := pkt.bthQpn
    ackReq := pkt.bthAck
    reth := if mask.reth then ⟨pkt.rethVa, pkt.rethRkey, pkt.rethLen⟩ else {}
    atmeth :=
      if mask.atmeth then ⟨pkt.atmethVa, pkt.atmethRkey, pkt.atmethSwapAdd, pkt.atmethComp⟩ else {}
    aeth := if mask.aeth then ⟨pkt.aethSyn, pkt.aethMsn⟩ else {}
    atmack := if mask.atmack then pkt.atmackOrig else 0
    immdt := if mask.immdt then pkt.immdtImm else 0
    ieth := if mask.ieth then pkt.iethRkey else 0
    deth := if mask.deth then ⟨pkt.dethQkey, pkt.dethSqp⟩ else {}
    payload := pkt.payload
    grh := (List.range 40).map fun i => pkt.hdr (pkt.offset - 40 + i) }

end PktInfo

end Rxe
