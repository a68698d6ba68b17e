/-
Packet and work-request opcodes (`rxe_opcode.h`, `rxe_opcode.c`).

The BTH opcodes of the RC, UC and UD transports are an enumeration; an opcode
without an entry in the `rxe_opcode` table is `undefined`.  A header mask
(`RXE_*_MASK`) and a work-request mask (`WR_*_MASK`) are records of flags, and
the two tables of the driver are the functions `rxeOpcodeMask` and
`wrOpcodeMask`.
-/
import Mathlib.Tactic.Common

namespace Rxe

/-- QP types (`enum ib_qp_type`, the ones the driver supports). -/
inductive QpType
  | rc | uc | ud | smi | gsi
  deriving DecidableEq, Repr

/-- Work-request opcodes (`enum ib_wr_opcode`). -/
inductive WrOpcode
  | rdmaWrite | rdmaWriteWithImm | send | sendWithImm | rdmaRead
  | atomicCmpAndSwp | atomicFetchAndAdd | lso | sendWithInv
  | rdmaReadWithInv | localInv | fastRegMr
  deriving DecidableEq, Repr

/-- BTH opcodes (`IB_OPCODE_*`). -/
inductive Opcode
  | rcSendFirst | rcSendMiddle | rcSendLast | rcSendLastWithImmediate
  | rcSendOnly | rcSendOnlyWithImmediate
  | rcRdmaWriteFirst | rcRdmaWriteMiddle | rcRdmaWriteLast
  | rcRdmaWriteLastWithImmediate | rcRdmaWriteOnly | rcRdmaWriteOnlyWithImmediate
  | rcRdmaReadRequest | rcRdmaReadResponseFirst | rcRdmaReadResponseMiddle
  | rcRdmaReadResponseLast | rcRdmaReadResponseOnly
  | rcAcknowledge | rcAtomicAcknowledge | rcCompareSwap | rcFetchAdd
  | rcSendLastInv | rcSendOnlyInv
  | ucSendFirst | ucSendMiddle | ucSendLast | ucSendLastWithImmediate
  | ucSendOnly | ucSendOnlyWithImmediate
  | ucRdmaWriteFirst | ucRdmaWriteMiddle | ucRdmaWriteLast
  | ucRdmaWriteLastWithImmediate | ucRdmaWriteOnly | ucRdmaWriteOnlyWithImmediate
  | udSendOnly | udSendOnlyWithImmediate
  | undefined (code : ℕ)
  deriving DecidableEq, Repr

def Opcode.isUc : Opcode → Bool
  | .ucSendFirst | .ucSendMiddle | .ucSendLast | .ucSendLastWithImmediate | .ucSendOnly
  | .ucSendOnlyWithImmediate | .ucRdmaWriteFirst | .ucRdmaWriteMiddle | .ucRdmaWriteLast
  | .ucRdmaWriteLastWithImmediate | .ucRdmaWriteOnly | .ucRdmaWriteOnlyWithImmediate => true
  | _ => false

def Opcode.isUd : Opcode → Bool
  | .udSendOnly | .udSendOnlyWithImmediate => true
  | _ => false

/-- The transport of a packet, as `check_type_state` compares it with the QP. -/
def Opcode.transport (o : Opcode) : QpType :=
  if o.isUc then .uc else if o.isUd then .ud else .rc

/-- Header mask of a packet (`enum rxe_hdr_mask`). -/
structure HdrMask where
  grh : Bool := false
  reth : Bool := false
  aeth : Bool := false
  atmeth : Bool := false
  atmack : Bool := false
  ieth : Bool := false
  deth : Bool := false
  immdt : Bool := false
  payload : Bool := false
  req : Bool := false
  ack : Bool := false
  send : Bool := false
  write : Bool := false
  read : Bool := false
  atomic : Bool := false
  rwr : Bool := false
  comp : Bool := false
  start : Bool := false
  middle : Bool := false
  end_ : Bool := false
  deriving DecidableEq, Repr

namespace HdrMask

/-- `mask & RXE_READ_OR_ATOMIC` -/
def readOrAtomic (m : HdrMask) : Bool := m.read || m.atomic

/-- `mask & RXE_WRITE_OR_SEND` -/
def writeOrSend (m : HdrMask) : Bool := m.write || m.send

end HdrMask

/-- The `mask` column of the `rxe_opcode` table. -/
def rxeOpcodeMask : Opcode → HdrMask
  | .rcSendFirst => { payload := true, req := true, rwr := true, send := true, start := true }
  | .rcSendMiddle => { payload := true, req := true, send := true, middle := true }
  | .rcSendLast => { payload := true, req := true, comp := true, send := true, end_ := true }
  | .rcSendLastWithImmediate =>
    { immdt := true, payload := true, req := true, comp := true, send := true, end_ := true }
  | .rcSendOnly =>
    { payload := true, req := true, comp := true, rwr := true, send := true, start := true,
      end_ := true }
  | .rcSendOnlyWithImmediate =>
    { immdt := true, payload := true, req := true, comp := true, rwr := true, send := true,
      start := true, end_ := true }
  | .rcRdmaWriteFirst =>
    { reth := true, payload := true, req := true, write := true, start := true }
  | .rcRdmaWriteMiddle => { payload := true, req := true, write := true, middle := true }
  | .rcRdmaWriteLast => { payload := true, req := true, write := true, end_ := true }
  | .rcRdmaWriteLastWithImmediate =>
    { immdt := true, payload := true, req := true, write := true, comp := true, rwr := true,
      end_ := true }
  | .rcRdmaWriteOnly =>
    { reth := true, payload := true, req := true, write := true, start := true, end_ := true }
  | .rcRdmaWriteOnlyWithImmediate =>
    { reth := true, immdt := true, payload := true, req := true, write := true, comp := true,
      rwr := true, start := true, end_ := true }
  | .rcRdmaReadRequest =>
    { reth := true, req := true, read := true, start := true, end_ := true }
  | .rcRdmaReadResponseFirst => { aeth := true, payload := true, ack := true, start := true }
  | .rcRdmaReadResponseMiddle => { payload := true, ack := true, middle := true }
  | .rcRdmaReadResponseLast => { aeth := true, payload := true, ack := true, end_ := true }
  | .rcRdmaReadResponseOnly =>
    { aeth := true, payload := true, ack := true, start := true, end_ := true }
  | .rcAcknowledge => { aeth := true, ack := true, start := true, end_ := true }
  | .rcAtomicAcknowledge =>
    { aeth := true, atmack := true, ack := true, start := true, end_ := true }
  | .rcCompareSwap => { atmeth := true, req := true, atomic := true, start := true, end_ := true }
  | .rcFetchAdd => { atmeth := true, req := true, atomic := true, start := true, end_ := true }
  | .rcSendLastInv =>
    { ieth := true, payload := true, req := true, comp := true, send := true, end_ := true }
  -- the table has no RXE_START_MASK here
  | .rcSendOnlyInv =>
    { ieth := true, payload := true, req := true, comp := true, rwr := true, send := true,
      end_ := true }
  | .ucSendFirst => { payload := true, req := true, rwr := true, send := true, start := true }
  | .ucSendMiddle => { payload := true, req := true, send := true, middle := true }
  | .ucSendLast => { payload := true, req := true, comp := true, send := true, end_ := true }
  | .ucSendLastWithImmediate =>
    { immdt := true, payload := true, req := true, comp := true, send := true, end_ := true }
  | .ucSendOnly =>
    { payload := true, req := true, comp := true, rwr := true, send := true, start := true,
      end_ := true }
  | .ucSendOnlyWithImmediate =>
    { immdt := true, payload := true, req := true, comp := true, rwr := true, send := true,
      start := true, end_ := true }
  | .ucRdmaWriteFirst =>
    { reth := true, payload := true, req := true, write := true, start := true }
  | .ucRdmaWriteMiddle => { payload := true, req := true, write := true, middle := true }
  | .ucRdmaWriteLast => { payload := true, req := true, write := true, end_ := true }
  | .ucRdmaWriteLastWithImmediate =>
    { immdt := true, payload := true, req := true, write := true, comp := true, rwr := true,
      end_ := true }
  | .ucRdmaWriteOnly =>
    { reth := true, payload := true, req := true, write := true, start := true, end_ := true }
  | .ucRdmaWriteOnlyWithImmediate =>
    { reth := true, immdt := true, payload := true, req := true, write := true, comp := true,
      rwr := true, start := true, end_ := true }
  | .udSendOnly =>
    { deth := true, payload := true, req := true, comp := true, rwr := true, send := true,
      start := true, end_ := true }
  | .udSendOnlyWithImmediate =>
    { deth := true, immdt := true, payload := true, req := true, comp := true, rwr := true,
      send := true, start := true, end_ := true }
  | .undefined _ => {}

/-- Work-request mask (`enum rxe_wr_mask`). -/
structure WrMask where
  inline : Bool := false
  atomic : Bool := false
  send : Bool := false
  read : Bool := false
  write : Bool := false
  deriving DecidableEq, Repr

namespace WrMask

/-- `mask & WR_ATOMIC_OR_READ_MASK` -/
def atomicOrRead (m : WrMask) : Bool := m.atomic || m.read

/-- `mask & WR_WRITE_OR_SEND_MASK` -/
def writeOrSend (m : WrMask) : Bool := m.write || m.send

end WrMask

/-- `wr_opcode_mask`: the `rxe_wr_opcode_info` table, row by opcode, column by QP type. -/
def wrOpcodeMask : WrOpcode → QpType → WrMask
  | .rdmaWrite, .rc | .rdmaWrite, .uc => { inline := true, write := true }
  | .rdmaWriteWithImm, .rc | .rdmaWriteWithImm, .uc => { inline := true, write := true }
  | .send, _ => { inline := true, send := true }
  | .sendWithImm, _ => { inline := true, send := true }
  | .rdmaRead, .rc => { read := true }
  | .atomicCmpAndSwp, .rc => { atomic := true }
  | .atomicFetchAndAdd, .rc => { atomic := true }
  | .sendWithInv, .rc | .sendWithInv, .uc | .sendWithInv, .ud => { inline := true, send := true }
  | .rdmaReadWithInv, .rc => { read := true }
  | _, _ => {}

end Rxe
