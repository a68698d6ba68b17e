/-
Work requests, packets and queue pairs (`rxe_verbs.h`, `ib_verbs.h`, `rxe_hdr.h`).

The records follow the structures of the driver; a union is either one field
(`ex`, `ptr`) or the union of the fields that are read.  The send and receive
queues are `RingBuf`s: `req.wqe_index` and the pointers into the queues are kept as
distances from the consumer index.

A task of the driver runs in a `Ctx`: the QP, the device, the module parameters,
the outcomes of the allocations still to come, and the list of the events it has
produced.  Besides what leaves the QP (packets, completions, asynchronous events,
timers, scheduled tasks) the events record which request was executed and which
response data was copied, so that statements about runs can refer to them.
-/
import Rxe.Mr
import Rxe.Opcode
import Rxe.RingBuf

namespace Rxe

/-- `enum ib_wc_status`: the values the QP tasks report. -/
inductive WcStatus
  | success | locQpOpErr | locProtErr | wrFlushErr | remInvReqErr | remAccessErr
  | remOpErr | retryExcErr | rnrRetryExcErr
  deriving DecidableEq, Repr

/-- `enum ib_wc_opcode`; `other` is the `0xff` of `wr_to_wc_opcode`. -/
inductive WcOpcode
  | send | rdmaWrite | rdmaRead | compSwap | fetchAdd | lso | localInv | fastRegMr
  | recv | recvRdmaWithImm | other
  deriving DecidableEq, Repr

/-- `enum ib_send_flags` -/
structure SendFlags where
  fence : Bool := false
  signaled : Bool := false
  solicited : Bool := false
  inline : Bool := false
  deriving DecidableEq, Repr

/-- `struct ib_send_wr`; `ex` is the union of the immediate data and the rkey to
invalidate. -/
structure SendWr where
  wrId : ℕ := 0
  sgList : List Sge := []
  opcode : WrOpcode
  sendFlags : SendFlags := {}
  ex : ℕ := 0
  remoteAddr : ℕ := 0
  rkey : ℕ := 0
  compareAdd : ℕ := 0
  swap : ℕ := 0
  atomicRkey : ℕ := 0
  remoteQpn : ℕ := 0
  remoteQkey : ℕ := 0
  pkeyIndex : ℕ := 0
  -- the address vector that `wr.ud.ah` points to, as bytes
  ah : List UInt8 := []
  deriving DecidableEq, Repr

/-- `enum wqe_state` -/
inductive WqeState
  | posted | processing | pending | done | error
  deriving DecidableEq, Repr

/-- `struct rxe_send_wqe` -/
structure SendWqe where
  ibwr : SendWr
  av : List UInt8 := []
  status : WcStatus := .success
  state : WqeState := .posted
  iova : ℕ := 0
  mask : WrMask := {}
  firstPsn : ℕ := 0
  lastPsn : ℕ := 0
  ssn : ℕ := 0
  hasRdAtomic : Bool := false
  dma : DmaInfo := {}
  deriving DecidableEq, Repr

/-- `struct rxe_recv_wqe` -/
structure RecvWqe where
  wrId : ℕ := 0
  dma : DmaInfo := {}
  deriving DecidableEq, Repr

/-- RDMA extended transport header. -/
structure Reth where
  va : ℕ := 0
  rkey : ℕ := 0
  len : ℕ := 0
  deriving DecidableEq, Repr

/-- Atomic extended transport header. -/
structure AtmEth where
  va : ℕ := 0
  rkey : ℕ := 0
  swapAdd : ℕ := 0
  comp : ℕ := 0
  deriving DecidableEq, Repr

/-- ACK extended transport header. -/
structure Aeth where
  syn : ℕ := 0
  msn : ℕ := 0
  deriving DecidableEq, Repr

/-- Datagram extended transport header. -/
structure Deth where
  qkey : ℕ := 0
  sqp : ℕ := 0
  deriving DecidableEq, Repr

/-- A packet: the base header, the extended headers its opcode carries, the payload.
Headers the opcode does not carry are left at their default. -/
structure Pkt where
  opcode : Opcode
  psn : ℕ := 0
  se : Bool := false
  pad : ℕ := 0
  pkey : ℕ := 0
  qpn : ℕ := 0
  ackReq : Bool := false
  reth : Reth := {}
  atmeth : AtmEth := {}
  aeth : Aeth := {}
  atmack : ℕ := 0
  immdt : ℕ := 0
  ieth : ℕ := 0
  deth : Deth := {}
  payload : List UInt8 := []
  -- the GRH in front of the base header; only UD receives read it
  grh : List UInt8 := List.replicate 40 0
  deriving DecidableEq, Repr

/-- `pkt->mask`: the row of the opcode table, with the flag `rxe_net` sets on every
packet. -/
def Pkt.mask (pkt : Pkt) : HdrMask := { rxeOpcodeMask pkt.opcode with grh := true }

/-- `enum aeth_syndrome` -/
def aethTypeMask : ℕ := 0xe0
def aethAck : ℕ := 0x00
def aethRnrNak : ℕ := 0x20
def aethNak : ℕ := 0x60
def aethAckUnlimited : ℕ := 0x1f
def aethNakPsnSeqError : ℕ := 0x60
def aethNakInvalidReq : ℕ := 0x61
def aethNakRemAccErr : ℕ := 0x62
def aethNakRemOpErr : ℕ := 0x63

/-- `aeth_syn(pkt) & AETH_TYPE_MASK` -/
def Pkt.aethType (pkt : Pkt) : ℕ := pkt.aeth.syn &&& aethTypeMask

/-- `struct ib_wc` / `struct ib_uverbs_wc`; `grh`, `withImm` and `withInvalidate` are
the bits of `wc_flags`. -/
structure Wc where
  wrId : ℕ := 0
  status : WcStatus := .success
  opcode : WcOpcode := .send
  byteLen : ℕ := 0
  grh : Bool := false
  withImm : Bool := false
  withInvalidate : Bool := false
  ex : ℕ := 0
  srcQp : ℕ := 0
  portNum : ℕ := 0
  deriving DecidableEq, Repr

/-- `enum rxe_qp_state` -/
inductive QpState
  | reset | init | ready | drain | drained | error
  deriving DecidableEq, Repr

/-- `struct rxe_req_info`; `opcode` is `none` for the value -1. -/
structure ReqInfo where
  state : QpState := .reset
  wqeIndex : ℕ := 0
  psn : ℕ := 0
  opcode : Option Opcode := none
  rdAtomic : ℤ := 0
  waitFence : Bool := false
  needRdAtomic : Bool := false
  waitPsn : Bool := false
  needRetry : Bool := false
  noackPkts : ℕ := 0
  deriving DecidableEq, Repr

/-- `struct rxe_comp_info` -/
structure CompInfo where
  psn : ℕ := 0
  opcode : Option Opcode := none
  timeout : Bool := false
  timeoutRetry : Bool := false
  retryCnt : ℕ := 0
  rnrRetry : ℕ := 0
  deriving DecidableEq, Repr

/-- `res->type` of a responder resource. -/
inductive ResType
  | none | read | atomic
  deriving DecidableEq, Repr

/-- `enum rdatm_res_state` -/
inductive RdatmResState
  | next | new | replay
  deriving DecidableEq, Repr

/-- The pointer that `res->read.mr` and `res->atomic.skb` share. -/
inductive ResPtr
  | null
  | mr (index : ℕ)
  | skb (pkt : Pkt)
  deriving DecidableEq, Repr

/-- The region that is meant, where it is one. -/
def ResPtr.region : ResPtr → Option ℕ
  | .mr m => some m
  | _ => none

/-- `struct resp_res` -/
structure RespRes where
  type : ResType := .none
  firstPsn : ℕ := 0
  lastPsn : ℕ := 0
  curPsn : ℕ := 0
  state : RdatmResState := .next
  ptr : ResPtr := .null
  vaOrg : ℕ := 0
  rkey : ℕ := 0
  length : ℕ := 0
  va : ℕ := 0
  resid : ℕ := 0
  deriving DecidableEq, Repr

/-- Where `qp->resp.wqe` points: into the receive queue, or to the copy of an SRQ entry. -/
inductive RecvRef
  | rq (index : ℕ)
  | srq
  deriving DecidableEq, Repr

/-- `struct rxe_resp_info`; `res` is the index of the resource in use. -/
structure RespInfo where
  state : QpState := .reset
  msn : ℕ := 0
  psn : ℕ := 0
  opcode : Option Opcode := none
  dropMsg : Bool := false
  gotoError : Bool := false
  sentPsnNak : Bool := false
  status : WcStatus := .success
  aethSyndrome : ℕ := 0
  wqe : Option RecvRef := none
  va : ℕ := 0
  mr : Option ℕ := none
  resid : ℕ := 0
  rkey : ℕ := 0
  atomicOrig : ℕ := 0
  srqWqe : RecvWqe := {}
  resources : List RespRes := []
  resHead : ℕ := 0
  res : Option ℕ := none
  deriving DecidableEq, Repr

/-- `struct rxe_srq`: its queue, its limit and its error flag. -/
structure Srq where
  queue : RingBuf RecvWqe
  limit : ℕ := 0
  error : Bool := false
  deriving DecidableEq, Repr

/-- `enum ib_qp_state` -/
inductive IbQpState
  | reset | init | rtr | rts | sqd | sqe | err
  deriving DecidableEq, Repr

/-- The attributes of a QP that the tasks and the verbs read (`struct ib_qp_attr`). -/
structure QpAttr where
  qpState : IbQpState := .reset
  maxRdAtomic : ℕ := 0
  maxDestRdAtomic : ℕ := 0
  retryCnt : ℕ := 0
  rnrRetry : ℕ := 0
  minRnrTimer : ℕ := 0
  qpAccessFlags : List Access := []
  portNum : ℕ := 1
  pkeyIndex : ℕ := 0
  destQpNum : ℕ := 0
  deriving DecidableEq, Repr

/-- `struct rxe_qp` -/
structure Qp where
  type : QpType
  qpNum : ℕ := 0
  valid : Bool := true
  isUser : Bool := false
  mtu : ℕ := 256
  pd : ℕ := 0
  attr : QpAttr := {}
  -- `sq_sig_type == IB_SIGNAL_ALL_WR`
  sqSigAll : Bool := false
  sqMaxSge : ℕ := 0
  sqMaxInline : ℕ := 0
  rqMaxSge : ℕ := 0
  sq : RingBuf SendWqe
  rq : RingBuf RecvWqe
  srq : Option Srq := none
  reqPkts : List Pkt := []
  respPkts : List Pkt := []
  req : ReqInfo := {}
  comp : CompInfo := {}
  resp : RespInfo := {}
  ssn : ℕ := 0
  reqSkbOut : ℕ := 0
  needReqSkb : Bool := false
  qpTimeoutJiffies : ℕ := 0
  deriving DecidableEq, Repr

/-- Module parameters, and the clock rate of the kernel. -/
structure Params where
  maxSkbPerQp : ℕ := 800
  maxReqCompGap : ℕ := 128
  maxPktPerAck : ℕ := 64
  hz : ℕ := 100
  deriving DecidableEq, Repr

/-- What a task does that can be seen from outside it. -/
inductive Event
  /-- A request handed to the arbiter, with the `ssn` of the WQE it was built from. -/
  | sendReq (pkt : Pkt) (ssn : ℕ)
  /-- A response handed to the arbiter. -/
  | sendResp (pkt : Pkt)
  /-- A completion posted to the send CQ, with the WQE it reports. -/
  | sendCqe (wc : Wc) (wqe : SendWqe)
  /-- A completion posted to the receive CQ. -/
  | recvCqe (wc : Wc) (solicited : Bool)
  /-- `rxe_cq_post` found the CQ full. -/
  | cqErr
  /-- `execute` took the request without an error; `orig` is `resp.atomic_orig`. -/
  | exec (pkt : Pkt) (orig : ℕ)
  /-- `do_read` or `do_atomic` copied the data of a response into the WQE. -/
  | copied (pkt : Pkt) (ssn : ℕ)
  | sqDrained
  | srqLimitReached
  | runReq
  | runComp
  | runResp
  | modRetransTimer
  | modRnrNakTimer (timeout : ℕ)
  /-- A pointer was used as one of another kind or followed although it is NULL, or a packet was
  built that is too short for its headers: from here on the model says nothing. -/
  | wild
  deriving DecidableEq, Repr

/-- The state in which a task of a QP runs.  `skb` lists the outcomes of the
allocations and clones still to come, `cq` whether the next completions find room;
an exhausted list means success. -/
structure Ctx where
  qp : Qp
  dev : Dev := {}
  par : Params := {}
  skb : List Bool := []
  cq : List Bool := []
  out : List Event := []

namespace Ctx

def emit (c : Ctx) (e : Event) : Ctx := { c with out := c.out ++ [e] }

/-- Outcome of the next allocation or clone. -/
def takeSkb (c : Ctx) : Bool × Ctx :=
  match c.skb with
  | [] => (true, c)
  | b :: bs => (b, { c with skb := bs })

/-- `rxe_cq_post`: report the event if the CQ has room. -/
def cqPost (c : Ctx) (e : Event) : Bool × Ctx :=
  match c.cq with
  | [] => (true, c.emit e)
  | true :: bs => (true, { c with cq := bs }.emit e)
  | false :: bs => (false, { c with cq := bs }.emit .cqErr)

/-- The next allocation or clone succeeds. -/
def skbRoom (c : Ctx) : Prop := c.skb.head? ≠ some false

/-- The next completion finds room in its CQ. -/
def cqRoom (c : Ctx) : Prop := c.cq.head? ≠ some false

/-- `queue_head(qp->sq.queue)` -/
def sqHead (c : Ctx) : Option SendWqe := c.qp.sq.live.head?

/-- Change the WQE at an index of the send queue. -/
def setWqe (c : Ctx) (i : ℕ) (f : SendWqe → SendWqe) : Ctx :=
  { c with qp.sq := c.qp.sq.modify i f }

end Ctx

end Rxe
