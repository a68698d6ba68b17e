/-
The requester of a QP (`rxe_req.c`).

`req.wqe_index` is the distance of the WQE from the consumer of the send queue, so
`consumer_index` is 0 and `producer_index` is the number of queued WQEs.

`rxeRequester` is one call of `rxe_requester`; `true` stands for the return value 0
and `false` for -EAGAIN.  The retransmission timer is armed when it is not pending;
the event `modRetransTimer` says that the requester tried.
-/
import Rxe.Comp

namespace Rxe

/-- Opcode of the next packet of a message that is sent in segments: the family of the
`case`s of `next_opcode_rc` and `next_opcode_uc`. -/
def segmentOpcode (first middle last only : Opcode) (prev : Option Opcode) (fits : Bool) :
    Opcode :=
  if prev = some first ∨ prev = some middle then (if fits then last else middle)
  else if fits then only
  else first

/-- `next_opcode_rc` -/
def nextOpcodeRc (prev : Option Opcode) (opcode : WrOpcode) (fits : Bool) : Option Opcode :=
  match opcode with
  | .rdmaWrite =>
    some (segmentOpcode .rcRdmaWriteFirst .rcRdmaWriteMiddle .rcRdmaWriteLast .rcRdmaWriteOnly
      prev fits)
  | .rdmaWriteWithImm =>
    some (segmentOpcode .rcRdmaWriteFirst .rcRdmaWriteMiddle .rcRdmaWriteLastWithImmediate
      .rcRdmaWriteOnlyWithImmediate prev fits)
  | .send =>
    some (segmentOpcode .rcSendFirst .rcSendMiddle .rcSendLast .rcSendOnly prev fits)
  | .sendWithImm =>
    some (segmentOpcode .rcSendFirst .rcSendMiddle .rcSendLastWithImmediate
      .rcSendOnlyWithImmediate prev fits)
  | .rdmaRead => some .rcRdmaReadRequest
  | .atomicCmpAndSwp => some .rcCompareSwap
  | .atomicFetchAndAdd => some .rcFetchAdd
  | .sendWithInv =>
    some (segmentOpcode .rcSendFirst .rcSendMiddle .rcSendLastInv .rcSendOnlyInv prev fits)
  | _ => none

/-- `next_opcode_uc` -/
def nextOpcodeUc (prev : Option Opcode) (opcode : WrOpcode) (fits : Bool) : Option Opcode :=
  match opcode with
  | .rdmaWrite =>
    some (segmentOpcode .ucRdmaWriteFirst .ucRdmaWriteMiddle .ucRdmaWriteLast .ucRdmaWriteOnly
      prev fits)
  | .rdmaWriteWithImm =>
    some (segmentOpcode .ucRdmaWriteFirst .ucRdmaWriteMiddle .ucRdmaWriteLastWithImmediate
      .ucRdmaWriteOnlyWithImmediate prev fits)
  | .send =>
    some (segmentOpcode .ucSendFirst .ucSendMiddle .ucSendLast .ucSendOnly prev fits)
  | .sendWithImm =>
    some (segmentOpcode .ucSendFirst .ucSendMiddle .ucSendLastWithImmediate
      .ucSendOnlyWithImmediate prev fits)
  | _ => none

/-- `next_opcode`; `none` stands for -EINVAL. -/
def nextOpcode (type : QpType) (mtu : ℕ) (prev : Option Opcode) (wqe : SendWqe) : Option Opcode :=
  let fits : Bool := wqe.dma.resid ≤ mtu
  match type with
  | .rc => nextOpcodeRc prev wqe.ibwr.opcode fits
  | .uc => nextOpcodeUc prev wqe.ibwr.opcode fits
  | .smi | .ud | .gsi =>
    match wqe.ibwr.opcode with
    | .send => some .udSendOnly
    | .sendWithImm => some .udSendOnlyWithImmediate
    | _ => none

/-- The cursor of a WQE after `n` bytes that are not sent. -/
def skipData (wqe : SendWqe) (n : ℕ) : DmaInfo :=
  if wqe.ibwr.sendFlags.inline then
    { wqe.dma with resid := wqe.dma.resid - n, sgeOffset := wqe.dma.sgeOffset + n }
  else advanceDmaData wqe.dma n

/-- One iteration of `retry_first_write_send`: step the WQE over a packet without sending
it.  The state is `req.opcode` and the WQE. -/
def retrySkip (type : QpType) (mtu : ℕ) (mask : WrMask) (s : Option Opcode × SendWqe) :
    Option Opcode × SendWqe :=
  let wqe := s.2
  let iova := if mask.write then (wqe.iova + mtu) % 2 ^ 64 else wqe.iova
  (nextOpcode type mtu s.1 wqe, { wqe with dma := skipData wqe (min wqe.dma.resid mtu), iova })

/-- `retry_first_write_send` -/
def retryFirstWriteSend (type : QpType) (mtu : ℕ) (mask : WrMask) :
    ℕ → Option Opcode × SendWqe → Option Opcode × SendWqe
  | 0, s => s
  | n + 1, s => retryFirstWriteSend type mtu mask n (retrySkip type mtu mask s)

/-- Rewind a WQE in `req_retry`; the cursor of the first WQE is kept if it is a read. -/
def retryRewind (first : Bool) (mask : WrMask) (wqe : SendWqe) : SendWqe :=
  let dma :=
    if !first || !mask.read then
      { wqe.dma with resid := wqe.dma.length, curSge := 0, sgeOffset := 0 }
    else wqe.dma
  { wqe with iova := wqe.ibwr.remoteAddr, dma }

/-- What `req_retry` does to a WQE that has been sent from. -/
def retryWqe (type : QpType) (mtu npsn : ℕ) (first : Bool) (op : Option Opcode) (wqe : SendWqe) :
    Option Opcode × SendWqe :=
  let mask := wrOpcodeMask wqe.ibwr.opcode type
  let w := retryRewind first mask wqe
  let s :=
    if first && mask.writeOrSend then retryFirstWriteSend type mtu mask npsn (op, w) else (op, w)
  let iova := if first && mask.read then (s.2.iova + npsn * mtu % 2 ^ 32) % 2 ^ 64 else s.2.iova
  (s.1, { s.2 with iova, state := .posted })

/-- The loop of `req_retry` over the WQEs from the consumer on; the state is `req.opcode`. -/
def retryLoop (type : QpType) (mtu npsn : ℕ) :
    Bool → Option Opcode → List SendWqe → Option Opcode × List SendWqe
  | _, op, [] => (op, [])
  | first, op, wqe :: rest =>
    match wqe.state with
    | .posted => (op, wqe :: rest)
    | .done =>
      let r := retryLoop type mtu npsn first op rest
      (r.1, wqe :: r.2)
    | _ =>
      let s := retryWqe type mtu npsn first op wqe
      let r := retryLoop type mtu npsn false s.1 rest
      (r.1, s.2 :: r.2)

/-- `req_retry` -/
def reqRetry (c : Ctx) : Ctx :=
  match c.sqHead with
  | none => c
  | some head =>
    let npsn := psnSub c.qp.comp.psn head.firstPsn
    let r := retryLoop c.qp.type c.qp.mtu npsn true none c.qp.sq.live
    { c with qp.sq.live := r.2, qp.req.wqeIndex := 0, qp.req.psn := c.qp.comp.psn,
             qp.req.opcode := r.1 }

/-- The SQD transition in `req_next_wqe`. -/
def reqDrain (c : Ctx) : Ctx :=
  if c.qp.req.state = .drain ∧
      ¬ ∃ wqe ∈ c.sqHead, c.qp.req.wqeIndex ≠ 0 ∨ wqe.state ≠ .posted then
    { c with qp.req.state := .drained }.emit .sqDrained
  else c

/-- `req_next_wqe`: the WQE to send from, if there is one. -/
def reqNextWqe (c : Ctx) : Option SendWqe × Ctx :=
  let c := reqDrain c
  let i := c.qp.req.wqeIndex
  if i = c.qp.sq.live.length then (none, c)
  else
    match c.qp.sq.get? i with
    | none => (none, c)
    | some wqe =>
      if (c.qp.req.state = .drain ∨ c.qp.req.state = .drained) ∧ wqe.state ≠ .processing then
        (none, c)
      else if wqe.ibwr.sendFlags.fence ∧ i ≠ 0 then (none, { c with qp.req.waitFence := true })
      else
        let mask := wrOpcodeMask wqe.ibwr.opcode c.qp.type
        (some { wqe with mask }, c.setWqe i fun w => { w with mask })

/-- `check_init_depth`: `true` where the driver returns 0. -/
def checkInitDepth (c : Ctx) (wqe : SendWqe) : Bool × Ctx :=
  if wqe.hasRdAtomic then (true, c)
  else if 0 ≤ c.qp.req.rdAtomic - 1 then
    (true, { c.setWqe c.qp.req.wqeIndex fun w => { w with hasRdAtomic := true } with
      qp.req.needRdAtomic := false, qp.req.rdAtomic := c.qp.req.rdAtomic - 1 })
  else (false, { c with qp.req.needRdAtomic := true })

/-- `get_mtu` -/
def getMtu (c : Ctx) : ℕ :=
  if c.qp.type = .rc ∨ c.qp.type = .uc then c.qp.mtu else c.dev.mtuCap

/-- `(-payload) & 0x3` -/
def padOf (payload : ℕ) : ℕ := (4 - payload % 4) % 4

/-- `GSI_QKEY` -/
def gsiQkey : ℕ := 0x80010000

/-- The solicited-event bit of a request. -/
def reqSolicited (wqe : SendWqe) (mask : HdrMask) : Bool :=
  wqe.ibwr.sendFlags.solicited && mask.end_ && (mask.send || (mask.write && mask.immdt))

/-- The headers `init_req_packet` writes. -/
def reqPacket (qp : Qp) (dev : Dev) (wqe : SendWqe) (opcode : Opcode) (payload : ℕ)
    (ackReq : Bool) : Pkt :=
  let mask := rxeOpcodeMask opcode
  { opcode
    psn := qp.req.psn
    se := reqSolicited wqe mask
    pad := padOf payload
    pkey := dev.pkeyTbl (if qp.type = .gsi then wqe.ibwr.pkeyIndex else qp.attr.pkeyIndex)
    qpn := if mask.deth then wqe.ibwr.remoteQpn else qp.attr.destQpNum
    ackReq
    reth := if mask.reth then ⟨wqe.iova, wqe.ibwr.rkey, wqe.dma.length⟩ else {}
    immdt := if mask.immdt then wqe.ibwr.ex else 0
    ieth := if mask.ieth then wqe.ibwr.ex else 0
    atmeth :=
      if mask.atmeth then
        if opcode = .rcCompareSwap then
          ⟨wqe.iova, wqe.ibwr.atomicRkey, wqe.ibwr.swap, wqe.ibwr.compareAdd⟩
        else ⟨wqe.iova, wqe.ibwr.atomicRkey, wqe.ibwr.compareAdd, 0⟩
      else {}
    deth :=
      if mask.deth then
        ⟨if qp.qpNum = 1 then gsiQkey else wqe.ibwr.remoteQkey, qp.qpNum⟩
      else {} }

/-- `init_req_packet`; `none` if no skb can be had, in particular for a size that is
negative as an `int`. -/
def initReqPacket (c : Ctx) (wqe : SendWqe) (opcode : Opcode) (payload : ℤ) :
    Option Pkt × Ctx :=
  match c.takeSkb with
  | (ok, c) =>
    if ok = false ∨ payload < 0 then (none, c)
    else
      let c := { c with qp.reqSkbOut := c.qp.reqSkbOut + 1 }
      if (rxeOpcodeMask opcode).end_ then
        (some (reqPacket c.qp c.dev wqe opcode payload.toNat true),
          { c with qp.req.noackPkts := 0 })
      else
        let ackReq : Bool := c.par.maxPktPerAck < c.qp.req.noackPkts
        (some (reqPacket c.qp c.dev wqe opcode payload.toNat ackReq),
          { c with qp.req.noackPkts := if ackReq then 0 else c.qp.req.noackPkts + 1 })

/-- The data `fill_packet` copies, with the cursor it leaves. -/
def fillData (c : Ctx) (wqe : SendWqe) (payload : ℕ) :
    DmaInfo × List UInt8 × Except Errno Unit :=
  if wqe.ibwr.sendFlags.inline then
    ({ wqe.dma with resid := wqe.dma.resid - payload, sgeOffset := wqe.dma.sgeOffset + payload },
      (wqe.dma.inlineData.drop wqe.dma.sgeOffset).take payload, .ok ())
  else copyDataOut c.dev c.qp.pd none wqe.dma payload

/-- `fill_packet`; `none` where the driver returns -1. -/
def fillPacket (c : Ctx) (wqe : SendWqe) (pkt : Pkt) (payload : ℕ) : Option Pkt × Ctx :=
  if (rxeOpcodeMask pkt.opcode).writeOrSend then
    match fillData c wqe payload with
    | (dma, _, .error _) => (none, c.setWqe c.qp.req.wqeIndex fun w => { w with dma })
    | (dma, data, .ok ()) =>
      (some { pkt with payload := data }, c.setWqe c.qp.req.wqeIndex fun w => { w with dma })
  else (some pkt, c)

/-- The fields of the WQE that `update_state` writes. -/
def updateWqe (type : QpType) (psn numPkt : ℕ) (mask : HdrMask) (wqe : SendWqe) : SendWqe :=
  let wqe :=
    if mask.start then { wqe with firstPsn := psn, lastPsn := psnMask (psn + numPkt - 1) } else wqe
  { wqe with
    state := if mask.end_ then (if type = .rc then .pending else .done) else .processing }

/-- `num_pkt` of `update_state`: packets left to send including the current one. -/
def packetsLeft (mtu resid payload : ℕ) : ℕ := max 1 ((resid + payload + mtu - 1) % 2 ^ 32 / mtu)

/-- The requester moves on: the WQE at index `i` becomes `wqe`. -/
def moveOn (c : Ctx) (i : ℕ) (wqe : SendWqe) (psn : ℕ) (opcode : Opcode) (next : ℕ) : Ctx :=
  { c.setWqe i fun _ => wqe with
    qp.req.psn := psn
    qp.req.opcode := some opcode
    qp.req.wqeIndex := next }

/-- Start the retransmission timer, if there is a timeout. -/
def armRetransTimer (c : Ctx) : Ctx :=
  if c.qp.qpTimeoutJiffies ≠ 0 then c.emit .modRetransTimer else c

/-- `update_state` -/
def updateState (c : Ctx) (pkt : Pkt) (payload : ℕ) : Ctx :=
  let i := c.qp.req.wqeIndex
  match c.qp.sq.get? i with
  | none => c
  | some wqe =>
    let mask := rxeOpcodeMask pkt.opcode
    let numPkt := packetsLeft c.qp.mtu wqe.dma.resid payload
    let w := updateWqe c.qp.type c.qp.req.psn numPkt mask wqe
    let psn := if mask.read then psnMask (w.firstPsn + numPkt) else psnMask (c.qp.req.psn + 1)
    armRetransTimer
      (moveOn c i w psn pkt.opcode (if mask.end_ then (i + 1) % c.qp.sq.slots else i))

/-- `while (rxe_completer(qp) == 0);` -/
def completeAll : ℕ → Ctx → Option Ctx
  | 0, _ => none
  | n + 1, c =>
    match rxeCompleter c with
    | none => none
    | some (true, c) => completeAll n c
    | some (false, c) => some c

/-- The label `complete` of `rxe_requester`. -/
def reqComplete (c : Ctx) : Option (Bool × Ctx) :=
  if c.qp.type = .rc then some (true, c)
  else (completeAll (c.qp.sq.live.length + c.qp.respPkts.length + 2) c).map (true, ·)

/-- A UD message over the MTU is dropped and reported as sent. -/
def fakeUdSend (c : Ctx) : Ctx :=
  let i := c.qp.req.wqeIndex
  { c.setWqe i fun w => { w with firstPsn := c.qp.req.psn, lastPsn := c.qp.req.psn,
                                 state := .done, status := .success } with
    qp.req.psn := psnMask (c.qp.req.psn + 1)
    qp.req.opcode := some .udSendOnly
    qp.req.wqeIndex := (i + 1) % c.qp.sq.slots }

/-- `rxe_requester` from the call of `init_req_packet` on. -/
def reqSend (c : Ctx) (wqe : SendWqe) (opcode : Opcode) (payload : ℤ) : Option (Bool × Ctx) :=
  match initReqPacket c wqe opcode payload with
  | (none, c) => some (false, { c with qp.needReqSkb := true })
  | (some pkt, c) =>
    match fillPacket c wqe pkt payload.toNat with
    | (none, c) =>
      let c := c.setWqe c.qp.req.wqeIndex fun w => { w with status := .locProtErr, state := .error }
      (rxeCompleter c).map fun r => (true, r.2)
    | (some pkt, c) =>
      let c := (updateState c pkt payload.toNat).emit (.sendReq pkt wqe.ssn)
      if (rxeOpcodeMask opcode).end_ then reqComplete c else some (true, c)

/-- Reads and atomics need a credit. -/
def checkDepth (c : Ctx) (wqe : SendWqe) (opcode : Opcode) : Bool × Ctx :=
  if (rxeOpcodeMask opcode).readOrAtomic then checkInitDepth c wqe else (true, c)

/-- `rxe_requester` from the choice of the opcode on. -/
def reqBuild (c : Ctx) (wqe : SendWqe) (opcode : Opcode) : Option (Bool × Ctx) :=
  match checkDepth c wqe opcode with
  | (false, c) => some (false, c)
  | (true, c) =>
    let mtu := s32 (getMtu c)
    let payload : ℤ := if (rxeOpcodeMask opcode).writeOrSend then s32 wqe.dma.resid else 0
    if mtu < payload then
      if c.qp.type = .ud then reqComplete (fakeUdSend c) else reqSend c wqe opcode mtu
    else reqSend c wqe opcode payload

/-- `rxe_requester` from the call of `req_next_wqe` on. -/
def reqNext (c : Ctx) : Option (Bool × Ctx) :=
  match reqNextWqe c with
  | (none, c) => some (false, c)
  | (some wqe, c) =>
    -- sliding window that keeps the sender from overrunning the receiver
    if c.qp.type = .rc ∧ 0 < psnCompare c.qp.req.psn (c.qp.comp.psn + c.par.maxReqCompGap) then
      some (false, { c with qp.req.waitPsn := true })
    else if c.par.maxSkbPerQp < c.qp.reqSkbOut then some (false, { c with qp.needReqSkb := true })
    else
      match nextOpcode c.qp.type c.qp.mtu c.qp.req.opcode wqe with
      | none => some (false, setStatus c c.qp.req.wqeIndex .locQpOpErr)
      | some opcode => reqBuild c wqe opcode

/-- `rxe_requester` -/
def rxeRequester (c : Ctx) : Option (Bool × Ctx) :=
  if c.qp.valid = false ∨ c.qp.req.state = .error then some (false, c)
  else if c.qp.req.state = .reset then
    some (false, { c with qp.req.wqeIndex := 0, qp.req.opcode := none, qp.req.needRdAtomic := false,
                          qp.req.waitPsn := false, qp.req.needRetry := false })
  else if c.qp.req.needRetry then reqNext { reqRetry c with qp.req.needRetry := false }
  else reqNext c

end Rxe
