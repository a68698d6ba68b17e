/-
Reset, modify and the posting verbs (`rxe_qp.c`, `rxe_verbs.c`).

A WQE is posted into the slot the producer points to.  `init_send_wqe` does not write
every field of the slot: the completion status, the PSN range and the read/atomic
credit keep the values the previous user of the slot left.
-/
import Rxe.Resp

namespace Rxe

/-- `u32` sum of the lengths of an SGE list. -/
def sgeTotal (sgl : List Sge) : ℕ := (sgl.map Sge.length).sum % 2 ^ 32

/-- `validate_send_wr` -/
def validateSendWr (qp : Qp) (wr : SendWr) (mask : WrMask) (length : ℕ) : Bool :=
  !(qp.sqMaxSge < wr.sgList.length || (mask.atomic && (length < 8 || wr.remoteAddr % 8 ≠ 0)) ||
    (wr.sendFlags.inline && qp.sqMaxInline < length))

/-- The data of an inline request, copied when it is posted. -/
def inlineBytes (dev : Dev) (sgl : List Sge) : List UInt8 :=
  sgl.flatMap fun sge => (List.range sge.length).map fun i => dev.byte (sge.addr + i)

/-- `init_send_wqe`, on the old contents of the slot. -/
def initSendWqe (type : QpType) (dev : Dev) (wr : SendWr) (mask : WrMask) (length ssn : ℕ)
    (slot : SendWqe) : SendWqe :=
  { slot with
    ibwr := wr
    av := if type = .ud ∨ type = .smi ∨ type = .gsi then wr.ah else slot.av
    iova := wr.remoteAddr
    mask
    dma :=
      { length
        resid := length
        sge := if wr.sendFlags.inline then [] else wr.sgList
        inlineData := if wr.sendFlags.inline then inlineBytes dev wr.sgList else [] }
    state := .posted
    ssn }

/-- `post_one_send`: `true` where the driver returns 0. -/
def postOneSend (c : Ctx) (wr : SendWr) (mask : WrMask) (length : ℕ) : Bool × Ctx :=
  if validateSendWr c.qp wr mask length = false ∨ c.qp.sq.full then (false, c)
  else
    (true,
      { c with qp.sq := c.qp.sq.push (initSendWqe c.qp.type c.dev wr mask length (c.qp.ssn + 1))
               qp.ssn := c.qp.ssn + 1 })

/-- The loop of `rxe_post_send`. -/
def postSendLoop (c : Ctx) : List SendWr → Bool × Ctx
  | [] => (true, c)
  | wr :: wrs =>
    let mask := wrOpcodeMask wr.opcode c.qp.type
    if mask = {} ∨ (wr.sendFlags.inline ∧ mask.inline = false) then (false, c)
    else
      match postOneSend c wr mask (sgeTotal wr.sgList) with
      | (false, c) => (false, c)
      | (true, c) => postSendLoop c wrs

/-- `rxe_post_send` for a kernel QP; only a QP that has been in RTS takes requests. -/
def rxePostSend (c : Ctx) (wrs : List SendWr) : Bool × Ctx :=
  if c.qp.valid = false ∨ c.qp.req.state = .error ∨ c.qp.req.state = .reset ∨
      c.qp.req.state = .init then (false, c)
  else
    match postSendLoop c wrs with
    | (ok, c) => (ok, c.emit .runReq)

/-- `struct ib_recv_wr` -/
structure RecvWr where
  wrId : ℕ := 0
  sgList : List Sge := []
  deriving DecidableEq, Repr

/-- The receive WQE `post_one_recv` writes; every field of the slot is overwritten. -/
def initRecvWqe (wr : RecvWr) : RecvWqe :=
  { wrId := wr.wrId
    dma := { length := sgeTotal wr.sgList, resid := sgeTotal wr.sgList, sge := wr.sgList } }

/-- `post_one_recv` on a receive queue. -/
def postOneRecv (rq : RingBuf RecvWqe) (maxSge : ℕ) (wr : RecvWr) : Option (RingBuf RecvWqe) :=
  if rq.full ∨ maxSge < wr.sgList.length then none else some (rq.push fun _ => initRecvWqe wr)

/-- The loop of `rxe_post_recv`. -/
def postRecvLoop (maxSge : ℕ) (rq : RingBuf RecvWqe) : List RecvWr → Bool × RingBuf RecvWqe
  | [] => (true, rq)
  | wr :: wrs =>
    match postOneRecv rq maxSge wr with
    | none => (false, rq)
    | some rq => postRecvLoop maxSge rq wrs

/-- `rxe_post_recv` -/
def rxePostRecv (c : Ctx) (wrs : List RecvWr) : Bool × Ctx :=
  if c.qp.attr.qpState = .reset ∨ c.qp.valid = false ∨ c.qp.srq.isSome ∨ c.qp.isUser then (false, c)
  else
    match postRecvLoop c.qp.rqMaxSge c.qp.rq wrs with
    | (ok, rq) => (ok, { c with qp.rq := rq })

/-- `cleanup_rd_atomic_resources`; the freed resources keep their other fields. -/
def cleanupRdAtomicResources (c : Ctx) : Ctx :=
  { c with qp.resp.resources := c.qp.resp.resources.map fun res => { res with type := .none } }

/-- The attributes `rxe_qp_reset` cleans up itself. -/
def resetAttrs (c : Ctx) : Ctx :=
  cleanupRdAtomicResources
    { c with qp.ssn := 0, qp.req.opcode := none, qp.req.needRetry := false, qp.req.noackPkts := 0,
             qp.resp.msn := 0, qp.resp.opcode := none, qp.resp.dropMsg := false,
             qp.resp.gotoError := false, qp.resp.sentPsnNak := false, qp.resp.mr := none }

/-- `rxe_qp_reset`: the three tasks reset themselves, then the attributes are cleaned up. -/
def rxeQpReset (c : Ctx) : Option Ctx := do
  let c := { c with qp.req.state := .reset, qp.resp.state := .reset }
  let (_, c) ← rxeResponder 1 c
  let (_, c) ← rxeCompleter c
  let (_, c) ← rxeRequester c
  pure (resetAttrs c)

/-- `rxe_qp_drain` -/
def rxeQpDrain (c : Ctx) : Option Ctx :=
  if c.qp.req.state = .drained then some c
  else
    let c := { c with qp.req.state := .drain }
    if c.qp.type = .rc then some ((c.emit .runComp).emit .runReq)
    else
      (completeAll (c.qp.sq.live.length + c.qp.respPkts.length + 2) c).map (·.emit .runReq)

/-- `__roundup_pow_of_two`, for a positive argument. -/
def roundupPowOfTwo (n : ℕ) : ℕ := if n ≤ 1 then 1 else 2 ^ (Nat.log2 (n - 1) + 1)

/-- `rxe_mtu_enum_to_int`, stored in an `unsigned int`. -/
def rxeMtuEnumToInt : ℕ → ℕ
  | 1 => 256
  | 2 => 512
  | 3 => 1024
  | 4 => 2048
  | 5 => 4096
  | 6 => 8192
  | _ => 2 ^ 32 - 1

/-- `usecs_to_jiffies` -/
def usecsToJiffies (hz usecs : ℕ) : ℕ := (usecs + 1000000 / hz - 1) / (1000000 / hz)

/-- The attributes of a modify verb, those in its mask. -/
structure ModifyAttr where
  qpState : Option IbQpState := none
  maxRdAtomic : Option ℕ := none
  qpAccessFlags : Option (List Access) := none
  pkeyIndex : Option ℕ := none
  portNum : Option ℕ := none
  pathMtu : Option ℕ := none
  timeout : Option ℕ := none
  retryCnt : Option ℕ := none
  rnrRetry : Option ℕ := none
  rqPsn : Option ℕ := none
  minRnrTimer : Option ℕ := none
  sqPsn : Option ℕ := none
  maxDestRdAtomic : Option ℕ := none
  destQpNum : Option ℕ := none

/-- The `IB_QP_MAX_QP_RD_ATOMIC` part of `rxe_qp_from_attr`: a new resource ring. -/
def setMaxRdAtomic (c : Ctx) (n : ℕ) : Bool × Ctx :=
  let n := roundupPowOfTwo n
  match c.takeSkb with
  | (false, c) => (false, { c with qp.resp.resources := [], qp.resp.resHead := 0 })
  | (true, c) =>
    (true, { c with qp.resp.resources := List.replicate n {}, qp.resp.resHead := 0,
                    qp.attr.maxRdAtomic := n, qp.req.rdAtomic := n })

/-- The plain attributes of `rxe_qp_from_attr`; an attribute outside the mask stays. -/
def setAttrs (par : Params) (qp : Qp) (a : ModifyAttr) : Qp :=
  { qp with
    attr.qpAccessFlags := a.qpAccessFlags.getD qp.attr.qpAccessFlags
    attr.pkeyIndex := a.pkeyIndex.getD qp.attr.pkeyIndex
    attr.portNum := a.portNum.getD qp.attr.portNum
    attr.retryCnt := a.retryCnt.getD qp.attr.retryCnt
    attr.rnrRetry := a.rnrRetry.getD qp.attr.rnrRetry
    attr.minRnrTimer := a.minRnrTimer.getD qp.attr.minRnrTimer
    attr.maxDestRdAtomic := (a.maxDestRdAtomic.map roundupPowOfTwo).getD qp.attr.maxDestRdAtomic
    attr.destQpNum := a.destQpNum.getD qp.attr.destQpNum
    attr.qpState := a.qpState.getD qp.attr.qpState
    mtu := (a.pathMtu.map rxeMtuEnumToInt).getD qp.mtu
    qpTimeoutJiffies :=
      (a.timeout.map fun t => if t = 0 then 0 else max 1 (usecsToJiffies par.hz (4 * 2 ^ t))).getD
        qp.qpTimeoutJiffies
    comp.retryCnt := a.retryCnt.getD qp.comp.retryCnt
    comp.rnrRetry := a.rnrRetry.getD qp.comp.rnrRetry
    resp.psn := (a.rqPsn.map psnMask).getD qp.resp.psn
    req.psn := (a.sqPsn.map psnMask).getD qp.req.psn
    comp.psn := (a.sqPsn.map psnMask).getD qp.comp.psn }

/-- The state change at the end of `rxe_qp_from_attr`. -/
def setQpState (c : Ctx) : Option IbQpState → Option Ctx
  | none => some c
  | some .reset => rxeQpReset c
  | some .init => some { c with qp.req.state := .init, qp.resp.state := .init }
  | some .rtr => some { c with qp.resp.state := .ready }
  | some .rts => some { c with qp.req.state := .ready }
  | some .sqd => rxeQpDrain c
  | some .sqe => some c
  | some .err => some (rxeQpError c)

/-- `rxe_qp_from_attr`: `false` where it fails for want of memory. -/
def rxeQpFromAttr (c : Ctx) (a : ModifyAttr) : Option (Bool × Ctx) :=
  let r := match a.maxRdAtomic with
    | none => (true, c)
    | some n => setMaxRdAtomic c n
  if r.1 = false then some (false, r.2)
  else
    let c := { r.2 with qp := setAttrs r.2.par r.2.qp a }
    (setQpState c a.qpState).map (true, ·)

end Rxe
