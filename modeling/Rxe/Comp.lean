/-
The completer of a QP (`rxe_comp.c`).

`compStep` is one pass through the `switch` of `rxe_completer`, from a state of the
completer, the response packet it holds and the context it runs in.  In every state
that uses a WQE, `wqe` is the head of the send queue, so it is read from there.
`rxeCompleter` runs the loop; `true` stands for the return value 0 (the task calls
again) and `false` for -EAGAIN.
-/
import Rxe.Loop
import Rxe.Psn
import Rxe.Verbs

namespace Rxe

/-- `enum comp_state` -/
inductive CompState
  | getAck | getWqe | compWqe | compAck | checkPsn | checkAck | read | atomic | writeSend
  | updateComp | errorRetry | rnrRetry | error | exit | done
  deriving DecidableEq, Repr

/-- `rnrnak_usec`, by the timer field of an RNR NAK. -/
def rnrnakUsec : List ℕ :=
  [655360, 10, 20, 30, 40, 60, 80, 120, 160, 240, 320, 480, 640, 960, 1280, 1920, 2560, 3840,
    5120, 7680, 10240, 15360, 20480, 30720, 40960, 61410, 81920, 122880, 163840, 245760, 327680,
    491520]

/-- `wr_to_wc_opcode` -/
def wrToWcOpcode : WrOpcode → WcOpcode
  | .rdmaWrite | .rdmaWriteWithImm => .rdmaWrite
  | .send | .sendWithImm | .sendWithInv => .send
  | .rdmaRead | .rdmaReadWithInv => .rdmaRead
  | .atomicCmpAndSwp => .compSwap
  | .atomicFetchAndAdd => .fetchAdd
  | .lso => .lso
  | .localInv => .localInv
  | .fastRegMr => .fastRegMr

/-- `retransmit_timer` -/
def retransmitTimer (c : Ctx) : Ctx :=
  if c.qp.valid then { c with qp.comp.timeout := true }.emit .runComp else c

/-- `rxe_comp_queue_pkt` -/
def rxeCompQueuePkt (c : Ctx) (pkt : Pkt) : Ctx :=
  { c with qp.respPkts := c.qp.respPkts ++ [pkt] }.emit .runComp

/-- `get_wqe` -/
def getWqe (c : Ctx) (pkt : Option Pkt) : CompState :=
  match c.sqHead with
  | none => if pkt.isSome then .done else .exit
  | some wqe =>
    match wqe.state with
    | .posted => if pkt.isSome then .done else .exit
    | .done => .compWqe
    | .error => .error
    | .processing | .pending => if pkt.isSome then .checkPsn else .exit

/-- `reset_retry_counters` -/
def resetRetryCounters (c : Ctx) : Ctx :=
  { c with qp.comp.retryCnt := c.qp.attr.retryCnt, qp.comp.rnrRetry := c.qp.attr.rnrRetry }

/-- `check_psn` of the completer. -/
def compCheckPsn (c : Ctx) (pkt : Pkt) (wqe : SendWqe) : CompState × Ctx :=
  -- a response past the oldest WQE completes a send or write, and is an error for the others
  if 0 < psnCompare pkt.psn wqe.lastPsn then
    if wqe.state = .pending then
      if wqe.mask.atomicOrRead then (.errorRetry, c) else (.compWqe, resetRetryCounters c)
    else (.done, c)
  else
    let diff := psnCompare pkt.psn c.qp.comp.psn
    if diff < 0 then (if pkt.psn = wqe.lastPsn then .compAck else .done, c)
    else if 0 < diff ∧ wqe.mask.atomicOrRead then (.errorRetry, c)
    else (.checkAck, c)

/-- The sequence check at the start of `check_ack`. -/
def ackSeqOk (opcode : Option Opcode) (pkt : Pkt) : Bool :=
  match opcode with
  | none => pkt.mask.start
  | some .rcRdmaReadResponseFirst | some .rcRdmaReadResponseMiddle =>
    pkt.opcode = .rcRdmaReadResponseMiddle || pkt.opcode = .rcRdmaReadResponseLast
  | _ => true

/-- `if (qp->req.wait_psn) { ...; rxe_run_task(&qp->req.task, 1); }` -/
def wakeWaitPsn (c : Ctx) : Ctx :=
  if c.qp.req.waitPsn then { c with qp.req.waitPsn := false }.emit .runReq else c

/-- `wqe->status = status` for the WQE at an index. -/
def setStatus (c : Ctx) (i : ℕ) (status : WcStatus) : Ctx :=
  c.setWqe i fun wqe => { wqe with status }

/-- The `IB_OPCODE_RC_ACKNOWLEDGE` case of `check_ack`. -/
def checkAcknowledge (c : Ctx) (pkt : Pkt) : CompState × Ctx :=
  if pkt.aethType = aethAck then (.writeSend, resetRetryCounters c)
  else if pkt.aethType = aethRnrNak then (.rnrRetry, c)
  else if pkt.aethType = aethNak then
    if pkt.aeth.syn = aethNakPsnSeqError then
      -- a nak implicitly acks all packets with PSNs before its own
      if 0 < psnCompare pkt.psn c.qp.comp.psn then
        (.errorRetry, wakeWaitPsn { c with qp.comp.psn := pkt.psn })
      else (.errorRetry, c)
    else if pkt.aeth.syn = aethNakInvalidReq then (.error, setStatus c 0 .remInvReqErr)
    else if pkt.aeth.syn = aethNakRemAccErr then (.error, setStatus c 0 .remAccessErr)
    else (.error, setStatus c 0 .remOpErr)
  else (.error, c)

/-- `check_ack` -/
def checkAck (c : Ctx) (pkt : Pkt) (wqe : SendWqe) : CompState × Ctx :=
  let readResponse : CompState × Ctx :=
    if wqe.ibwr.opcode = .rdmaRead ∨ wqe.ibwr.opcode = .rdmaReadWithInv then
      (.read, resetRetryCounters c)
    else (.error, c)
  if ackSeqOk c.qp.comp.opcode pkt = false then (.error, c)
  else
    match pkt.opcode with
    | .rcRdmaReadResponseFirst | .rcRdmaReadResponseLast | .rcRdmaReadResponseOnly =>
      if pkt.aethType ≠ aethAck then (.error, c) else readResponse
    | .rcRdmaReadResponseMiddle => readResponse
    | .rcAtomicAcknowledge =>
      if pkt.aethType ≠ aethAck then (.error, c)
      else if wqe.ibwr.opcode = .atomicCmpAndSwp ∨ wqe.ibwr.opcode = .atomicFetchAndAdd then
        (.atomic, resetRetryCounters c)
      else (.error, c)
    | .rcAcknowledge => checkAcknowledge c pkt
    | _ => (.error, c)

/-- The bytes of a `u64` in memory (little endian). -/
def u64Bytes (x : ℕ) : List UInt8 := (List.range 8).map fun i => UInt8.ofNat (x / 256 ^ i)

/-- Copy response data into the SGEs of the head WQE; `next` is where the completer goes. -/
def copyResponse (c : Ctx) (pkt : Pkt) (wqe : SendWqe) (data : List UInt8)
    (next : DmaInfo → CompState) : CompState × Ctx :=
  match copyDataIn c.dev c.qp.pd (some .localWrite) wqe.dma data with
  | (dma, dev, .error _) => (.error, { c with dev }.setWqe 0 fun w => { w with dma })
  | (dma, dev, .ok ()) =>
    (next dma, ({ c with dev }.setWqe 0 fun w => { w with dma }).emit (.copied pkt wqe.ssn))

/-- `do_read` -/
def doRead (c : Ctx) (pkt : Pkt) (wqe : SendWqe) : CompState × Ctx :=
  copyResponse c pkt wqe pkt.payload fun dma =>
    if dma.resid = 0 ∧ pkt.mask.end_ then .compAck else .updateComp

/-- `do_atomic` -/
def doAtomic (c : Ctx) (pkt : Pkt) (wqe : SendWqe) : CompState × Ctx :=
  copyResponse c pkt wqe (u64Bytes pkt.atmack) fun _ => .compAck

/-- `make_send_cqe` -/
def makeSendCqe (wqe : SendWqe) : Wc :=
  { wrId := wqe.ibwr.wrId, status := wqe.status, opcode := wrToWcOpcode wqe.ibwr.opcode,
    byteLen := wqe.dma.length }

/-- `advance_consumer(qp->sq.queue)`.  `req.wqe_index` does not move, so its distance from
the consumer changes. -/
def advanceSq (c : Ctx) : Ctx :=
  { c with qp.sq := c.qp.sq.pop, qp.req.wqeIndex := c.qp.sq.rebase c.qp.req.wqeIndex }

/-- The part of `do_complete` that posts a CQE. -/
def postSendCqe (c : Ctx) (wqe : SendWqe) : Ctx :=
  if c.qp.sqSigAll || wqe.ibwr.sendFlags.signaled then
    (c.cqPost (.sendCqe (makeSendCqe wqe) wqe)).2
  else c

/-- `if (qp->req.wait_fence) { ...; rxe_run_task(&qp->req.task, 1); }` -/
def wakeWaitFence (c : Ctx) : Ctx :=
  if c.qp.req.waitFence then { c with qp.req.waitFence := false }.emit .runReq else c

/-- `do_complete` of the completer, for the head of the send queue. -/
def doComplete (c : Ctx) : Ctx :=
  match c.sqHead with
  | none => c
  | some wqe => wakeWaitFence (advanceSq (postSendCqe c wqe))

/-- Give back the read/atomic credit of the WQE (`complete_ack`). -/
def releaseRdAtomic (c : Ctx) (wqe : SendWqe) : Ctx :=
  if wqe.hasRdAtomic then
    let c := { c.setWqe 0 fun w => { w with hasRdAtomic := false } with
      qp.req.rdAtomic := c.qp.req.rdAtomic + 1 }
    if c.qp.req.needRdAtomic then
      { c with qp.comp.timeoutRetry := false, qp.req.needRdAtomic := false }.emit .runReq
    else c
  else c

/-- The SQD transition in `complete_ack`. -/
def completeDrain (c : Ctx) : Ctx :=
  if c.qp.req.state = .drain ∧ c.qp.comp.psn = c.qp.req.psn then
    { c with qp.req.state := .drained }.emit .sqDrained
  else c

/-- `complete_ack` -/
def completeAck (c : Ctx) (pkt : Pkt) (wqe : SendWqe) : CompState × Ctx :=
  let c := doComplete (completeDrain (releaseRdAtomic c wqe))
  (if 0 ≤ psnCompare pkt.psn c.qp.comp.psn then .updateComp else .done, c)

/-- `if (psn_compare(pkt->psn, qp->comp.psn) >= 0) qp->comp.psn = (pkt->psn + 1) & BTH_PSN_MASK` -/
def advanceCompPsn (c : Ctx) (pkt : Pkt) : Ctx :=
  if 0 ≤ psnCompare pkt.psn c.qp.comp.psn then { c with qp.comp.psn := psnMask (pkt.psn + 1) }
  else c

/-- `complete_wqe` -/
def completeWqe (c : Ctx) (pkt : Option Pkt) : CompState × Ctx :=
  let c := { c with qp.comp.opcode := none }
  let c := match pkt with
    | none => c
    | some pkt => wakeWaitPsn (advanceCompPsn c pkt)
  (.getWqe, doComplete c)

/-- The `COMPST_UPDATE_COMP` case. -/
def updateComp (c : Ctx) (pkt : Pkt) : Ctx :=
  let c := { c with qp.comp.opcode := if pkt.mask.end_ then none else some pkt.opcode }
  wakeWaitPsn (advanceCompPsn c pkt)

/-- Retire the whole send queue: `while (queue_head(q)) advance_consumer(q)`. -/
def dropSq : ℕ → Ctx → Ctx
  | 0, c => c
  | n + 1, c => dropSq n (advanceSq c)

/-- Complete the whole send queue with a flush error. -/
def flushSq : ℕ → Ctx → Ctx
  | 0, c => c
  | n + 1, c => flushSq n (doComplete (setStatus c 0 .wrFlushErr))

/-- The `QP_STATE_ERROR` branch of `rxe_completer`. -/
def compFlush (c : Ctx) : Ctx :=
  let c := { c with qp.respPkts := [] }
  flushSq c.qp.sq.live.length c

/-- The `!valid` and `QP_STATE_RESET` branches of `rxe_completer`. -/
def compDrop (c : Ctx) : Ctx :=
  let c := { c with qp.respPkts := [] }
  dropSq c.qp.sq.live.length c

/-- Both halves of the QP in the error state. -/
def toErrorState (c : Ctx) : Ctx := { c with qp.req.state := .error, qp.resp.state := .error }

/-- `rxe_qp_error`; in the error state a call of the completer task is a flush. -/
def rxeQpError (c : Ctx) : Ctx :=
  let c := (toErrorState c).emit .runResp
  (if c.qp.type = .rc then c.emit .runComp else compFlush c).emit .runReq

/-- The `COMPST_EXIT` case after the test for a retry. -/
def compExit (c : Ctx) : Ctx :=
  if c.qp.type = .rc ∧ c.qp.req.state = .ready ∧ 0 < psnCompare c.qp.req.psn c.qp.comp.psn ∧
      c.qp.qpTimeoutJiffies ≠ 0 then
    c.emit .modRetransTimer
  else c

/-- Spend one retry; the value 7 means no limit. -/
def spendRetry (n : ℕ) : ℕ := if n = 7 then 7 else n - 1

/-- The `COMPST_ERROR_RETRY` case where a retry is left. -/
def compErrorRetry (c : Ctx) : Ctx :=
  let c := { c with qp.comp.retryCnt := spendRetry c.qp.comp.retryCnt }
  -- no point in retrying after the last ack the requester could have caused
  if 0 < psnCompare c.qp.req.psn c.qp.comp.psn then
    { c with qp.req.needRetry := true }.emit .runReq
  else c

/-- The `COMPST_RNR_RETRY` case where a retry is left. -/
def compRnrRetry (c : Ctx) (pkt : Pkt) : Ctx :=
  { c with qp.comp.rnrRetry := spendRetry c.qp.comp.rnrRetry, qp.req.needRetry := true }.emit
    (.modRnrNakTimer (rnrnakUsec.getD (pkt.aeth.syn % 32) 0))

/-- What the loop of `rxe_completer` carries. -/
structure CompCfg where
  state : CompState
  pkt : Option Pkt
  c : Ctx

namespace CompCfg

/-- Go on in the state a function returned. -/
def goto (s : CompCfg) (r : CompState × Ctx) : CompCfg ⊕ Bool × Ctx :=
  .inl { s with state := r.1, c := r.2 }

/-- A state entered with a packet and a WQE only. -/
def withPktWqe (s : CompCfg) (f : Pkt → SendWqe → CompCfg ⊕ Bool × Ctx) :
    CompCfg ⊕ Bool × Ctx :=
  match s.pkt, s.c.sqHead with
  | some pkt, some wqe => f pkt wqe
  | _, _ => .inr (false, s.c)

end CompCfg

/-- One pass through the loop of `rxe_completer`. -/
def compStep (s : CompCfg) : CompCfg ⊕ Bool × Ctx :=
  match s.state with
  | .getAck =>
    match s.c.qp.respPkts with
    | [] => s.goto (.getWqe, s.c)
    | pkt :: pkts =>
      .inl ⟨.getWqe, some pkt, { s.c with qp.respPkts := pkts, qp.comp.timeoutRetry := false }⟩
  | .getWqe => s.goto (getWqe s.c s.pkt, s.c)
  | .checkPsn => s.withPktWqe fun pkt wqe => s.goto (compCheckPsn s.c pkt wqe)
  | .checkAck => s.withPktWqe fun pkt wqe => s.goto (checkAck s.c pkt wqe)
  | .read => s.withPktWqe fun pkt wqe => s.goto (doRead s.c pkt wqe)
  | .atomic => s.withPktWqe fun pkt wqe => s.goto (doAtomic s.c pkt wqe)
  | .writeSend => s.withPktWqe fun pkt wqe =>
    s.goto (if wqe.state = .pending ∧ wqe.lastPsn = pkt.psn then .compAck else .updateComp, s.c)
  | .compAck => s.withPktWqe fun pkt wqe => s.goto (completeAck s.c pkt wqe)
  | .compWqe => s.goto (completeWqe s.c s.pkt)
  | .updateComp =>
    match s.pkt with
    | none => .inr (false, s.c)
    | some pkt => s.goto (.done, updateComp s.c pkt)
  | .done => .inr (true, s.c)
  | .exit =>
    if s.c.qp.comp.timeoutRetry && s.c.sqHead.isSome then s.goto (.errorRetry, s.c)
    else .inr (false, compExit s.c)
  | .errorRetry =>
    match s.c.sqHead with
    | none => .inr (false, s.c)
    | some wqe =>
      if wqe.state = .posted then .inr (false, s.c)
      else if 0 < s.c.qp.comp.retryCnt then .inr (false, compErrorRetry s.c)
      else s.goto (.error, setStatus s.c 0 .retryExcErr)
  | .rnrRetry => s.withPktWqe fun pkt _ =>
    if 0 < s.c.qp.comp.rnrRetry then .inr (false, compRnrRetry s.c pkt)
    else s.goto (.error, setStatus s.c 0 .rnrRetryExcErr)
  | .error => .inr (false, rxeQpError (doComplete s.c))

/-- Enough passes for the loop of `rxe_completer`: at most three for each WQE it completes. -/
def compFuel (c : Ctx) : ℕ := 3 * c.qp.sq.live.length + 8

/-- `rxe_completer` -/
def rxeCompleter (c : Ctx) : Option (Bool × Ctx) :=
  if c.qp.valid = false then some (false, compDrop c)
  else if c.qp.req.state = .error then some (false, compFlush c)
  else if c.qp.req.state = .reset then some (false, compDrop c)
  else
    let c := { c with qp.comp.timeoutRetry := c.qp.comp.timeout, qp.comp.timeout := false }
    if c.qp.req.needRetry then some (false, c)
    else Loop.run compStep (compFuel c) ⟨.getAck, none, c⟩

end Rxe
