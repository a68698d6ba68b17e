/-
The responder of a QP (`rxe_resp.c`).

`respStep` is one pass through the `switch` of `rxe_responder`.  `rxeResponder` runs the
loop for a bounded number of passes; `none` means that it is still running.  `true`
stands for the return value 0 and `false` for an error code, after which the task stops
calling.

Where the driver uses the pointer of a responder resource as one of the other kind (the
skb of an atomic as a region, or a region as an skb), hands on a clone that could not be
made, or builds a response with a negative payload, the event `wild` is logged.  What it
does from there on is not modelled: the model goes on as if the memory that is read there
held nothing of interest.  A NULL `qp->resp.wqe` where data has to be stored is reported
as a malformed WQE.
-/
import Rxe.Req

namespace Rxe

/-- `enum resp_states`, without the value for "no error". -/
inductive RespState
  | getReq | chkPsn | chkOpSeq | chkOpValid | chkResource | chkLength | chkRkey | execute
  | readReply | complete | acknowledge | cleanup | duplicateRequest
  | errMalformedWqe | errUnsupportedOpcode | errMisalignedAtomic | errPsnOutOfSeq
  | errMissingOpcodeFirst | errMissingOpcodeLastC | errMissingOpcodeLastD1e
  | errTooManyRdmaAtmReq | errRnr | errRkeyViolation | errLength | errCqOverflow
  | error | reset | done | exit
  deriving DecidableEq, Repr

/-- `rxe_resp_queue_pkt` -/
def rxeRespQueuePkt (c : Ctx) (pkt : Pkt) : Ctx :=
  { c with qp.reqPkts := c.qp.reqPkts ++ [pkt] }.emit .runResp

/-- `get_req`: the next state and the packet it works on. -/
def getReq (c : Ctx) (pkt : Option Pkt) : RespState × Option Pkt × Ctx :=
  if c.qp.resp.state = .error then
    match c.qp.reqPkts with
    -- go drain the receive queue
    | [] => (.chkResource, pkt, c)
    | _ :: pkts => (.getReq, pkt, { c with qp.reqPkts := pkts })
  else
    match c.qp.reqPkts with
    | [] => (.exit, pkt, c)
    | p :: _ => (if c.qp.resp.res.isSome then .readReply else .chkPsn, some p, c)

/-- `check_psn` of the responder. -/
def respCheckPsn (c : Ctx) (pkt : Pkt) : RespState × Ctx :=
  let diff := psnCompare pkt.psn c.qp.resp.psn
  match c.qp.type with
  | .rc =>
    if 0 < diff then
      if c.qp.resp.sentPsnNak then (.cleanup, c)
      else (.errPsnOutOfSeq, { c with qp.resp.sentPsnNak := true })
    else if diff < 0 then (.duplicateRequest, c)
    else (.chkOpSeq, { c with qp.resp.sentPsnNak := false })
  | .uc =>
    if c.qp.resp.dropMsg ∨ diff ≠ 0 then
      if pkt.mask.start then (.chkOpSeq, { c with qp.resp.dropMsg := false })
      else (.cleanup, { c with qp.resp.dropMsg := true })
    else (.chkOpSeq, c)
  | _ => (.chkOpSeq, c)

/-- Opcodes that continue an RC send. -/
def rcSendNext : List Opcode :=
  [.rcSendMiddle, .rcSendLast, .rcSendLastWithImmediate, .rcSendLastInv]

/-- Opcodes that continue an RC write. -/
def rcWriteNext : List Opcode :=
  [.rcRdmaWriteMiddle, .rcRdmaWriteLast, .rcRdmaWriteLastWithImmediate]

/-- Opcodes that continue a UC send. -/
def ucSendNext : List Opcode := [.ucSendMiddle, .ucSendLast, .ucSendLastWithImmediate]

/-- Opcodes that continue a UC write. -/
def ucWriteNext : List Opcode :=
  [.ucRdmaWriteMiddle, .ucRdmaWriteLast, .ucRdmaWriteLastWithImmediate]

/-- `check_op_seq` -/
def checkOpSeq (c : Ctx) (pkt : Pkt) : RespState × Ctx :=
  match c.qp.type with
  | .rc =>
    match c.qp.resp.opcode with
    | some .rcSendFirst | some .rcSendMiddle =>
      (if pkt.opcode ∈ rcSendNext then .chkOpValid else .errMissingOpcodeLastC, c)
    | some .rcRdmaWriteFirst | some .rcRdmaWriteMiddle =>
      (if pkt.opcode ∈ rcWriteNext then .chkOpValid else .errMissingOpcodeLastC, c)
    | _ =>
      (if pkt.opcode ∈ rcSendNext ∨ pkt.opcode ∈ rcWriteNext then .errMissingOpcodeFirst
        else .chkOpValid, c)
  | .uc =>
    match c.qp.resp.opcode with
    | some .ucSendFirst | some .ucSendMiddle =>
      (if pkt.opcode ∈ ucSendNext then .chkOpValid else .errMissingOpcodeLastD1e, c)
    | some .ucRdmaWriteFirst | some .ucRdmaWriteMiddle =>
      (if pkt.opcode ∈ ucWriteNext then .chkOpValid else .errMissingOpcodeLastD1e, c)
    | _ =>
      if pkt.opcode ∈ ucSendNext ∨ pkt.opcode ∈ ucWriteNext then
        (.cleanup, { c with qp.resp.dropMsg := true })
      else (.chkOpValid, c)
  | _ => (.chkOpValid, c)

/-- The QP does not grant an access right. -/
def Qp.denied (qp : Qp) (access : Access) : Bool := access ∉ qp.attr.qpAccessFlags

/-- `check_op_valid`; `pkt->mask` is never zero. -/
def checkOpValid (c : Ctx) (pkt : Pkt) : RespState × Ctx :=
  match c.qp.type with
  | .rc =>
    if (pkt.mask.read && c.qp.denied .remoteRead) || (pkt.mask.write && c.qp.denied .remoteWrite) ||
        (pkt.mask.atomic && c.qp.denied .remoteAtomic) then (.errUnsupportedOpcode, c)
    else (.chkResource, c)
  | .uc =>
    if pkt.mask.write && c.qp.denied .remoteWrite then
      (.cleanup, { c with qp.resp.dropMsg := true })
    else (.chkResource, c)
  | _ => (.chkResource, c)

/-- `get_srq_wqe` -/
def getSrqWqe (c : Ctx) (srq : Srq) : RespState × Ctx :=
  if srq.error then (.errRnr, c)
  else
    match srq.queue.live with
    | [] => (.errRnr, c)
    | wqe :: _ =>
      let queue := srq.queue.pop
      let c := { c with qp.resp.srqWqe := wqe, qp.resp.wqe := some .srq }
      if srq.limit ≠ 0 ∧ queue.live.length < srq.limit then
        (.chkLength, { c with qp.srq := some { srq with queue, limit := 0 } }.emit .srqLimitReached)
      else (.chkLength, { c with qp.srq := some { srq with queue } })

/-- `queue_head(qp->rq.queue)` as the new `qp->resp.wqe`. -/
def takeRqHead (c : Ctx) : Ctx :=
  { c with qp.resp.wqe := if c.qp.rq.live.isEmpty then none else some (.rq 0) }

/-- The receive WQE to flush next: the one in use, or the head of the receive queue. -/
def takeFlushWqe (c : Ctx) : Ctx :=
  if c.qp.resp.wqe.isNone ∧ c.qp.srq.isNone then takeRqHead c else c

/-- `check_resource` -/
def checkResource (c : Ctx) (pkt : Option Pkt) : RespState × Ctx :=
  if c.qp.resp.state = .error then
    let c := takeFlushWqe c
    if c.qp.resp.wqe.isSome then (.complete, { c with qp.resp.status := .wrFlushErr })
    else (.exit, c)
  else
    match pkt with
    | none => (.exit, c)
    | some pkt =>
      if pkt.mask.readOrAtomic then
        -- it is the requester's job not to send too many: the ring is just recycled
        (if 0 < c.qp.attr.maxRdAtomic then .chkLength else .errTooManyRdmaAtmReq, c)
      else if pkt.mask.rwr then
        match c.qp.srq with
        | some srq => getSrqWqe c srq
        | none =>
          let c := takeRqHead c
          (if c.qp.resp.wqe.isSome then .chkLength else .errRnr, c)
      else (.chkLength, c)

/-- The target of the request as `check_rkey` stores it. -/
def setTarget (c : Ctx) (pkt : Pkt) : Ctx :=
  if pkt.mask.read || pkt.mask.write then
    if pkt.mask.reth then
      { c with qp.resp.va := pkt.reth.va, qp.resp.rkey := pkt.reth.rkey,
               qp.resp.resid := pkt.reth.len }
    else c
  else
    { c with qp.resp.va := pkt.atmeth.va, qp.resp.rkey := pkt.atmeth.rkey, qp.resp.resid := 8 }

/-- The length checks of `check_rkey` on a write. -/
def writeLengthOk (mtu resid : ℕ) (pkt : Pkt) : Bool :=
  if mtu < resid then pkt.payload.length = mtu && pkt.pad = 0
  else pkt.payload.length = resid && pkt.pad = padOf resid

/-- `check_rkey` -/
def checkRkey (c : Ctx) (pkt : Pkt) : RespState × Ctx :=
  if pkt.mask.read || pkt.mask.write || pkt.mask.atomic then
    let access : Access :=
      if pkt.mask.read then .remoteRead else if pkt.mask.write then .remoteWrite else .remoteAtomic
    let c := setTarget c pkt
    match lookupMem c.dev c.qp.pd (some access) c.qp.resp.rkey .remote with
    | none => (.errRkeyViolation, c)
    | some index =>
      match c.dev.mem index with
      | none => (.errRkeyViolation, c)
      | some mem =>
        if memCheckRange mem c.qp.resp.va c.qp.resp.resid = false then (.errRkeyViolation, c)
        else if pkt.mask.write && !writeLengthOk c.qp.mtu c.qp.resp.resid pkt then (.errLength, c)
        else (.execute, { c with qp.resp.mr := some index })
  else (.execute, c)

/-- The receive WQE `qp->resp.wqe` points to. -/
def recvWqe (qp : Qp) : Option RecvWqe :=
  match qp.resp.wqe with
  | none => none
  | some (.rq i) => qp.rq.get? i
  | some .srq => some qp.resp.srqWqe

/-- Change the receive WQE in use. -/
def setRecvWqe (c : Ctx) (f : RecvWqe → RecvWqe) : Ctx :=
  match c.qp.resp.wqe with
  | none => c
  | some (.rq i) => { c with qp.rq := c.qp.rq.modify i f }
  | some .srq => { c with qp.resp.srqWqe := f c.qp.resp.srqWqe }

/-- `send_data_in`; `none` is `RESPST_NONE`. -/
def sendDataIn (c : Ctx) (data : List UInt8) : Option RespState × Ctx :=
  match recvWqe c.qp with
  | none => (some .errMalformedWqe, c)
  | some wqe =>
    match copyDataIn c.dev c.qp.pd (some .localWrite) wqe.dma data with
    | (dma, dev, r) =>
      let c := setRecvWqe { c with dev } fun w => { w with dma }
      match r with
      | .ok () => (none, c)
      | .error .enospc => (some .errLength, c)
      | .error _ => (some .errMalformedWqe, c)

/-- The region `qp->resp.mr` points to. -/
def respMem (c : Ctx) : Option Mem := c.qp.resp.mr.bind c.dev.mem

/-- `write_data_in` -/
def writeDataIn (c : Ctx) (pkt : Pkt) : Option RespState × Ctx :=
  match respMem c with
  | none => (some .errRkeyViolation, c)
  | some mem =>
    match rxeMemCopyIn c.dev mem c.qp.resp.va pkt.payload with
    | .error _ => (some .errRkeyViolation, c)
    | .ok dev =>
      (none, { c with dev, qp.resp.va := (c.qp.resp.va + pkt.payload.length) % 2 ^ 64,
                      qp.resp.resid := c.qp.resp.resid - pkt.payload.length })

/-- `iova_to_vaddr`; a DMA region has no map. -/
def iovaToVaddr (mem : Mem) (iova length : ℕ) : Option ℕ :=
  if mem.state ≠ .valid then none
  else if mem.type = .dma then some iova
  else if memCheckRange mem iova length = false then none
  else
    match lookupIova mem iova with
    | none => none
    | some (m, n, offset) =>
      match mem.buf m n with
      | none => none
      | some buf => if buf.size < offset + length then none else some (buf.addr + offset)

/-- The `u64` at an address (little endian). -/
def readU64 (byte : ℕ → UInt8) (addr : ℕ) : ℕ :=
  (List.range 8).foldr (fun i x => (byte (addr + i)).toNat + 256 * x) 0

/-- Store a `u64` at an address. -/
def writeU64 (byte : ℕ → UInt8) (addr x : ℕ) : ℕ → UInt8 :=
  writeBytes byte ((List.range 8).map (addr + ·)) (u64Bytes x)

/-- What an atomic request leaves in memory. -/
def atomicResult (pkt : Pkt) (orig : ℕ) : ℕ :=
  if pkt.opcode = .rcCompareSwap then
    if orig = pkt.atmeth.comp then pkt.atmeth.swapAdd else orig
  else (orig + pkt.atmeth.swapAdd) % 2 ^ 64

/-- `process_atomic` -/
def processAtomic (c : Ctx) (pkt : Pkt) : Option RespState × Ctx :=
  match respMem c with
  | none => (some .errRkeyViolation, c)
  | some mem =>
    if mem.state ≠ .valid then (some .errRkeyViolation, c)
    else
      match iovaToVaddr mem pkt.atmeth.va 8 with
      | none => (some .errMisalignedAtomic, c)
      | some vaddr =>
        if vaddr % 8 ≠ 0 ∨ vaddr = 0 then (some .errMisalignedAtomic, c)
        else
          let orig := readU64 c.dev.byte vaddr
          (none, { c with
            qp.resp.atomicOrig := orig
            dev.byte := writeU64 c.dev.byte vaddr (atomicResult pkt orig) })

/-- The headers `prepare_ack_packet` writes: the base header is that of the request, with
the fields below overwritten. -/
def ackPacket (qp : Qp) (pkt : Pkt) (opcode : Opcode) (payload psn syndrome : ℕ) : Pkt :=
  { opcode
    qpn := qp.attr.destQpNum
    pad := padOf payload
    psn := psnMask psn
    pkey := pkt.pkey
    ackReq := pkt.ackReq
    aeth := if (rxeOpcodeMask opcode).aeth then ⟨syndrome, psnMask qp.resp.msn⟩ else {}
    atmack := if (rxeOpcodeMask opcode).atmack then qp.resp.atomicOrig else 0 }

/-- `prepare_ack_packet`; with a negative payload the packet has no room for its headers. -/
def prepareAckPacket (c : Ctx) (pkt : Pkt) (opcode : Opcode) (payload : ℤ) (psn syndrome : ℕ) :
    Option Pkt × Ctx :=
  match c.takeSkb with
  | (false, c) => (none, c)
  | (true, c) =>
    if payload < 0 then (none, c.emit .wild)
    else (some (ackPacket c.qp pkt opcode payload.toNat psn syndrome), c)

/-- Change a responder resource. -/
def setRes (c : Ctx) (i : ℕ) (f : RespRes → RespRes) : Ctx :=
  { c with qp.resp.resources := c.qp.resp.resources.modify i f }

/-- `rxe_advance_resp_resource` -/
def rxeAdvanceRespResource (c : Ctx) : Ctx :=
  let head := c.qp.resp.resHead + 1
  { c with qp.resp.resHead := if head = c.qp.attr.maxRdAtomic then 0 else head }

/-- The resource of a read that is processed for the first time. -/
def RespRes.startRead (qp : Qp) (pkt : Pkt) (res : RespRes) : RespRes :=
  { res with
    type := .read
    va := qp.resp.va
    vaOrg := qp.resp.va
    firstPsn := pkt.psn
    lastPsn := (pkt.psn + (pkt.reth.len + qp.mtu - 1) % 2 ^ 32 / qp.mtu + 2 ^ 32 - 1) % 2 ^ 32
    curPsn := pkt.psn
    resid := qp.resp.resid
    length := qp.resp.resid
    rkey := qp.resp.rkey
    ptr := match qp.resp.mr with
      | none => .null
      | some m => .mr m
    state := .new }

/-- The start of `read_reply` for a request that is processed for the first time. -/
def initReadRes (c : Ctx) (pkt : Pkt) : Ctx :=
  let i := c.qp.resp.resHead
  let c := rxeAdvanceRespResource (setRes c i (RespRes.startRead c.qp pkt))
  { c with qp.resp.mr := none, qp.resp.res := some i }

/-- Opcode of the next response to a read. -/
def readRespOpcode (state : RdatmResState) (fits : Bool) : Opcode :=
  if state = .new then (if fits then .rcRdmaReadResponseOnly else .rcRdmaReadResponseFirst)
  else if fits then .rcRdmaReadResponseLast
  else .rcRdmaReadResponseMiddle

/-- `res->read.mr`, unless the resource holds something else. -/
def RespRes.region (res : RespRes) : Option ℕ := res.ptr.region

/-- The bytes of a read response; after a failed copy, the result of which is not looked at,
they are what the new skb holds. -/
def readData (c : Ctx) (res : RespRes) (payload : ℕ) : List UInt8 :=
  let fresh := (List.range payload).map c.dev.fresh
  match res.region.bind c.dev.mem with
  | none => fresh
  | some mem =>
    match rxeMemCopyOut c.dev mem res.va payload with
    | .error _ => fresh
    | .ok data => data

/-- `rxe_mem_copy` may be given something that is not a region. -/
def copyFrom (c : Ctx) (res : RespRes) : Ctx :=
  { c with out := c.out ++ if (res.region.bind c.dev.mem).isSome then [] else [.wild] }

/-- `res->state = rdatm_res_state_next` -/
def RespRes.started (res : RespRes) : RespRes := { res with state := .next }

/-- A response of `n` bytes was built from the resource. -/
def RespRes.advance (n : ℕ) (res : RespRes) : RespRes :=
  { res with va := (res.va + n) % 2 ^ 64, resid := res.resid - n,
             curPsn := psnMask (res.curPsn + 1) }

/-- The end of a read: the next request is expected after its last response. -/
def finishRead (c : Ctx) (psn : ℕ) : Ctx :=
  { c with qp.resp.res := none, qp.resp.opcode := none, qp.resp.psn := psn }

/-- `read_reply` for the resource at index `i`. -/
def readReplyRes (c : Ctx) (pkt : Pkt) (i : ℕ) (res : RespRes) : RespState × Ctx :=
  let opcode := readRespOpcode res.state (res.resid ≤ c.qp.mtu)
  let payload : ℤ := min (s32 res.resid) (s32 c.qp.mtu)
  match prepareAckPacket (setRes c i RespRes.started) pkt opcode payload res.curPsn
      aethAckUnlimited with
  | (none, c) => (.errRnr, c)
  | (some ack, c) =>
    let n := payload.toNat
    let ack := { ack with payload := readData c res n }
    let c := (setRes (copyFrom c res) i (RespRes.advance n)).emit (.sendResp ack)
    if n < res.resid then (.done, c) else (.cleanup, finishRead c (psnMask (res.curPsn + 1)))

/-- `read_reply` -/
def readReply (c : Ctx) (pkt : Pkt) : RespState × Ctx :=
  let c := if c.qp.resp.res.isNone then initReadRes c pkt else c
  match c.qp.resp.res with
  | none => (.done, c)
  | some i =>
    match c.qp.resp.resources[i]? with
    | none => (.done, c)
    | some res => readReplyRes c pkt i res

/-- The end of `execute`, for a request that was not a read. -/
def executeDone (c : Ctx) (pkt : Pkt) : RespState × Ctx :=
  let c := { c with
    qp.resp.msn := c.qp.resp.msn + 1
    qp.resp.psn := psnMask (pkt.psn + 1)
    qp.resp.opcode := some pkt.opcode
    qp.resp.status := .success }.emit (.exec pkt c.qp.resp.atomicOrig)
  (if pkt.mask.comp then .complete else if c.qp.type = .rc then .acknowledge else .cleanup, c)

/-- The data transfer of `execute`. -/
def executeData (c : Ctx) (pkt : Pkt) : Option RespState × Ctx :=
  if pkt.mask.send then
    if c.qp.type = .ud ∨ c.qp.type = .smi ∨ c.qp.type = .gsi then
      match sendDataIn c pkt.grh with
      | (some err, c) => (some err, c)
      | (none, c) => sendDataIn c pkt.payload
    else sendDataIn c pkt.payload
  else if pkt.mask.write then writeDataIn c pkt
  else if pkt.mask.atomic then processAtomic c pkt
  else (none, c)

/-- `execute` -/
def execute (c : Ctx) (pkt : Pkt) : RespState × Ctx :=
  if !pkt.mask.send && !pkt.mask.write && pkt.mask.read then
    (.readReply, { c with qp.resp.msn := c.qp.resp.msn + 1 }.emit (.exec pkt c.qp.resp.atomicOrig))
  else
    match executeData c pkt with
    | (some err, c) => (err, c)
    | (none, c) => executeDone c pkt

/-- The CQE of `do_complete`; the fields after the status are not set for errors. -/
def makeRecvCqe (qp : Qp) (wqe : RecvWqe) (pkt : Option Pkt) : Wc :=
  match qp.resp.status, pkt with
  | .success, some pkt =>
    { wrId := wqe.wrId
      opcode := if pkt.mask.immdt && pkt.mask.read then .recvRdmaWithImm else .recv
      byteLen := wqe.dma.length - wqe.dma.resid
      grh := true
      withImm := pkt.mask.immdt
      withInvalidate := pkt.mask.ieth
      ex := if pkt.mask.ieth then pkt.ieth else if pkt.mask.immdt then pkt.immdt else 0
      srcQp := if pkt.mask.deth then pkt.deth.sqp else 0
      portNum := qp.attr.portNum }
  | status, _ => { wrId := wqe.wrId, status }

/-- The receive WQE is used up: a copy for an SRQ, a reference into the receive queue
otherwise. -/
def retireRecvWqe (c : Ctx) : Ctx :=
  { c with qp.rq := if c.qp.srq.isNone then c.qp.rq.pop else c.qp.rq, qp.resp.wqe := none }

/-- Where `do_complete` goes after posting the CQE. -/
def respAfterCqe (c : Ctx) (pkt : Option Pkt) : RespState :=
  if c.qp.resp.state = .error then .chkResource
  else if pkt.isNone then .done
  else if c.qp.type = .rc then .acknowledge
  else .cleanup

/-- `pkt ? bth_se(pkt) : 1` -/
def recvSolicited : Option Pkt → Bool
  | none => true
  | some pkt => pkt.se

/-- `do_complete` of the responder. -/
def respDoComplete (c : Ctx) (pkt : Option Pkt) : RespState × Ctx :=
  match recvWqe c.qp with
  | none => (.cleanup, c)
  | some wqe =>
    match (retireRecvWqe c).cqPost (.recvCqe (makeRecvCqe c.qp wqe pkt) (recvSolicited pkt)) with
    | (false, c) => (.errCqOverflow, c)
    | (true, c) => (respAfterCqe c pkt, c)

/-- `send_ack` -/
def sendAck (c : Ctx) (pkt : Pkt) (syndrome psn : ℕ) : Ctx :=
  match prepareAckPacket c pkt .rcAcknowledge 0 psn syndrome with
  | (none, c) => c
  | (some ack, c) => c.emit (.sendResp ack)

/-- Transmit a clone of a kept response; a failed clone is handed to the arbiter as well. -/
def sendClone (c : Ctx) (ack : Pkt) : Ctx :=
  match c.takeSkb with
  | (false, c) => c.emit .wild
  | (true, c) => c.emit (.sendResp ack)

/-- The resource of an atomic. -/
def RespRes.keepAtomic (ack : Pkt) (psn : ℕ) (res : RespRes) : RespRes :=
  { res with type := .atomic, ptr := .skb ack, firstPsn := psn, lastPsn := psn, curPsn := psn }

/-- Keep the response to an atomic in the next resource; `resp.psn` is already the PSN
after the request. -/
def keepAtomicAck (c : Ctx) (ack : Pkt) : Ctx :=
  rxeAdvanceRespResource (setRes c c.qp.resp.resHead (RespRes.keepAtomic ack c.qp.resp.psn))

/-- `send_atomic_ack` -/
def sendAtomicAck (c : Ctx) (pkt : Pkt) (syndrome : ℕ) : Ctx :=
  match prepareAckPacket c pkt .rcAtomicAcknowledge 0 pkt.psn syndrome with
  | (none, c) => c
  | (some ack, c) => sendClone (keepAtomicAck c ack) ack

/-- `acknowledge` -/
def acknowledge (c : Ctx) (pkt : Pkt) : Ctx :=
  if c.qp.type ≠ .rc then c
  else if c.qp.resp.aethSyndrome ≠ aethAckUnlimited then
    sendAck c pkt c.qp.resp.aethSyndrome pkt.psn
  else if pkt.mask.atomic then sendAtomicAck c pkt aethAckUnlimited
  else if pkt.ackReq then sendAck c pkt aethAckUnlimited pkt.psn
  else c

/-- `cleanup` -/
def cleanup (c : Ctx) (pkt : Option Pkt) : Ctx :=
  { c with qp.reqPkts := if pkt.isSome then c.qp.reqPkts.tail else c.qp.reqPkts,
           qp.resp.mr := none }

/-- The test of `find_resource` on one resource. -/
def RespRes.covers (res : RespRes) (psn : ℕ) : Bool :=
  res.type ≠ .none && 0 ≤ psnCompare psn res.firstPsn && psnCompare psn res.lastPsn ≤ 0

/-- `find_resource`: index of the first resource whose PSN range has the PSN. -/
def findResource (qp : Qp) (psn : ℕ) : Option ℕ :=
  (qp.resp.resources.take qp.attr.maxRdAtomic).findIdx? (·.covers psn)

/-- A repeated read has to be the recorded one or a subset of it. -/
def replayOk (res : RespRes) (pkt : Pkt) : Bool :=
  !(pkt.reth.va < res.vaOrg || res.length < pkt.reth.len ||
    (res.vaOrg + res.length) % 2 ^ 64 < (pkt.reth.va + pkt.reth.len) % 2 ^ 64) &&
  pkt.reth.rkey = res.rkey

/-- Rewind a read resource for a replay; the length is kept. -/
def replayRes (pkt : Pkt) (res : RespRes) : RespRes :=
  { res with
    curPsn := pkt.psn
    state := if pkt.psn = res.firstPsn then .new else .replay
    vaOrg := pkt.reth.va
    va := pkt.reth.va
    resid := pkt.reth.len }

/-- The read branch of `duplicate_request`. -/
def duplicateRead (c : Ctx) (pkt : Pkt) : RespState × Ctx :=
  match findResource c.qp pkt.psn with
  | none => (.cleanup, c)
  | some i =>
    match c.qp.resp.resources[i]? with
    | none => (.cleanup, c)
    | some res =>
      if replayOk res pkt then
        (.readReply, { setRes c i (replayRes pkt) with qp.resp.res := some i })
      else (.cleanup, c)

/-- Send a kept response with a new PSN.  The clone shares its data with the kept skb, so
the PSN written into it is also the PSN of the kept one. -/
def resendAtomic (c : Ctx) (i : ℕ) (ack : Pkt) (psn : ℕ) : Ctx :=
  let ack := { ack with psn }
  (setRes c i fun res => { res with ptr := .skb ack }).emit (.sendResp ack)

/-- The atomic branch of `duplicate_request`. -/
def duplicateAtomic (c : Ctx) (pkt : Pkt) : Ctx :=
  match findResource c.qp pkt.psn with
  | none => c
  | some i =>
    match c.qp.resp.resources[i]? with
    | none => c
    | some res =>
      match res.ptr with
      | .skb ack =>
        match c.takeSkb with
        | (false, c) => c
        | (true, c) => resendAtomic c i ack (psnSub c.qp.resp.psn 1)
      -- `skb_clone` of a region, or of NULL
      | _ => c.emit .wild

/-- `duplicate_request` -/
def duplicateRequest (c : Ctx) (pkt : Pkt) : RespState × Ctx :=
  if pkt.mask.send || pkt.mask.write then
    (.cleanup,
      if pkt.ackReq then sendAck c pkt aethAckUnlimited (psnSub c.qp.resp.psn 1) else c)
  else if pkt.mask.read then duplicateRead c pkt
  else (.cleanup, duplicateAtomic c pkt)

/-- `do_class_ac_error` -/
def doClassAcError (c : Ctx) (syndrome : ℕ) (status : WcStatus) : Ctx :=
  { c with qp.resp.aethSyndrome := syndrome, qp.resp.status := status, qp.resp.gotoError := true }

/-- `do_class_d1e_error` -/
def doClassD1eError (c : Ctx) : RespState × Ctx :=
  if c.qp.srq.isSome then
    let c := { c with qp.resp.dropMsg := true }
    if c.qp.resp.wqe.isSome then (.complete, { c with qp.resp.status := .remInvReqErr })
    else (.cleanup, c)
  else
    -- the packet may start a new message: take the receive WQE back to its start
    let c :=
      if c.qp.resp.wqe.isSome then
        { setRecvWqe c fun w =>
            { w with dma := { w.dma with resid := w.dma.length, curSge := 0, sgeOffset := 0 } } with
          qp.resp.opcode := none }
      else c
    (.chkOpSeq, { c with qp.resp.mr := none })

/-- The `RESPST_ERR_RNR` case. -/
def respErrRnr (c : Ctx) (pkt : Pkt) : Ctx :=
  if c.qp.type = .rc then sendAck c pkt (aethRnrNak ||| c.qp.attr.minRnrTimer % 32) pkt.psn
  else { c with qp.resp.dropMsg := true }

/-- The `RESPST_ERR_RKEY_VIOLATION` case. -/
def respErrRkey (c : Ctx) : RespState × Ctx :=
  if c.qp.type = .rc then (.complete, doClassAcError c aethNakRemAccErr .remAccessErr)
  else
    let c := { c with qp.resp.dropMsg := true }
    if c.qp.srq.isSome then (.complete, { c with qp.resp.status := .remAccessErr })
    else (.cleanup, c)

/-- The `RESPST_ERR_LENGTH` case. -/
def respErrLength (c : Ctx) : RespState × Ctx :=
  if c.qp.type = .rc then (.complete, doClassAcError c aethNakInvalidReq .remInvReqErr)
  else if c.qp.srq.isSome then (.complete, { c with qp.resp.status := .remInvReqErr })
  else (.cleanup, { c with qp.resp.dropMsg := true })

/-- The `RESPST_RESET` case. -/
def respReset (c : Ctx) : Ctx :=
  let c := { c with qp.reqPkts := [] }
  let rq := if c.qp.srq.isNone then Nat.iterate RingBuf.pop c.qp.rq.live.length c.qp.rq else c.qp.rq
  { c with qp.rq := rq, qp.resp.wqe := none }

/-- What the loop of `rxe_responder` carries. -/
structure RespCfg where
  state : RespState
  pkt : Option Pkt
  c : Ctx

namespace RespCfg

/-- Go on in the state a function returned. -/
def goto (s : RespCfg) (r : RespState × Ctx) : RespCfg ⊕ Bool × Ctx :=
  .inl { s with state := r.1, c := r.2 }

/-- A state entered with a packet only. -/
def withPkt (s : RespCfg) (f : Pkt → RespCfg ⊕ Bool × Ctx) : RespCfg ⊕ Bool × Ctx :=
  match s.pkt with
  | some pkt => f pkt
  | none => .inr (false, s.c)

end RespCfg

/-- One pass through the loop of `rxe_responder`. -/
def respStep (s : RespCfg) : RespCfg ⊕ Bool × Ctx :=
  match s.state with
  | .getReq =>
    match getReq s.c s.pkt with
    | (state, pkt, c) => .inl ⟨state, pkt, c⟩
  | .chkPsn => s.withPkt fun pkt => s.goto (respCheckPsn s.c pkt)
  | .chkOpSeq => s.withPkt fun pkt => s.goto (checkOpSeq s.c pkt)
  | .chkOpValid => s.withPkt fun pkt => s.goto (checkOpValid s.c pkt)
  | .chkResource => s.goto (checkResource s.c s.pkt)
  -- `check_length` checks nothing
  | .chkLength => s.goto (.chkRkey, s.c)
  | .chkRkey => s.withPkt fun pkt => s.goto (checkRkey s.c pkt)
  | .execute => s.withPkt fun pkt => s.goto (execute s.c pkt)
  | .complete => s.goto (respDoComplete s.c s.pkt)
  | .readReply => s.withPkt fun pkt => s.goto (readReply s.c pkt)
  | .acknowledge => s.withPkt fun pkt => s.goto (.cleanup, acknowledge s.c pkt)
  | .cleanup => s.goto (.done, cleanup s.c s.pkt)
  | .duplicateRequest => s.withPkt fun pkt => s.goto (duplicateRequest s.c pkt)
  | .errPsnOutOfSeq => s.withPkt fun pkt =>
    s.goto (.cleanup, sendAck s.c pkt aethNakPsnSeqError s.c.qp.resp.psn)
  | .errTooManyRdmaAtmReq | .errMissingOpcodeFirst | .errMissingOpcodeLastC
  | .errUnsupportedOpcode | .errMisalignedAtomic =>
    s.goto (.complete, doClassAcError s.c aethNakInvalidReq .remInvReqErr)
  | .errMissingOpcodeLastD1e => s.goto (doClassD1eError s.c)
  | .errRnr => s.withPkt fun pkt => s.goto (.cleanup, respErrRnr s.c pkt)
  | .errRkeyViolation => s.goto (respErrRkey s.c)
  | .errLength => s.goto (respErrLength s.c)
  | .errMalformedWqe => s.goto (.complete, doClassAcError s.c aethNakRemOpErr .locQpOpErr)
  | .errCqOverflow => s.goto (.error, s.c)
  | .done => if s.c.qp.resp.gotoError then s.goto (.error, s.c) else .inr (true, s.c)
  | .exit => if s.c.qp.resp.gotoError then s.goto (.error, s.c) else .inr (false, s.c)
  | .reset => .inr (false, respReset s.c)
  | .error => .inr (false, rxeQpError { s.c with qp.resp.gotoError := false })

/-- `rxe_responder`, at most `fuel` passes. -/
def rxeResponder (fuel : ℕ) (c : Ctx) : Option (Bool × Ctx) :=
  let c := { c with qp.resp.aethSyndrome := aethAckUnlimited }
  if c.qp.valid = false then some (false, c)
  else Loop.run respStep fuel ⟨if c.qp.resp.state = .reset then .reset else .getReq, none, c⟩

/-- No pointer has been used as one of another kind. -/
def Ctx.tame (c : Ctx) : Prop := .wild ∉ c.out

instance (c : Ctx) : Decidable c.tame := inferInstanceAs (Decidable (.wild ∉ c.out))

end Rxe
