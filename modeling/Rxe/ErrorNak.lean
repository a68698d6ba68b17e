/-
Reports of errors of classes A and C to the peer (`do_class_ac_error`).

An RC responder that runs into such an error stores the syndrome of the NAK, goes through
`do_complete` to `acknowledge`, which sends it, and then moves the QP to the error state.
`do_complete` skips `acknowledge` where no receive WQE is in use, and where the receive CQ is
full.  The NAK then waits in the queue of the QP for the arbiter, and `xmit_one_packet` drops
it once the QP is in the error state.

`OutSys` is a call of `rxe_responder` with its output queue; between two passes the arbiter
takes its turns.

* `Detecting` — what holds up to the pass that finds the error;
* `Reporting` — what holds from there to the error state;
* `class_ac_error_nak_iff` — the QP is moved to the error state, and the interface gets the
  NAK exactly when a receive WQE is in use, the CQ has room, the packet can be allocated and
  the arbiter comes before the error state;
* `class_ac_error_no_nak` — an RDMA READ with a bad key is never answered.
-/
import Rxe.Arbiter
import Rxe.RespPass

namespace Rxe

variable {d c : Ctx} {p : Pkt} {e : RespState} {k : OutSys} {a : OutAct} {sys : RespSys}

/-! ### The error states -/

/-- The error states of classes A and C of an RC QP, with what they report. -/
def acError : RespState → Option (ℕ × WcStatus)
  | .errRkeyViolation => some (aethNakRemAccErr, .remAccessErr)
  | .errLength => some (aethNakInvalidReq, .remInvReqErr)
  | state => classAc state

/-- The error was found behind `check_resource`. -/
def RespState.lateError : RespState → Bool
  | .errRkeyViolation | .errLength | .errMisalignedAtomic | .errMalformedWqe => true
  | _ => false

/-- A receive WQE is in use where an error is found: one of the message in progress, or
behind `check_resource` the one it took for the packet. -/
def Ctx.recvInUse (c : Ctx) (p : Pkt) (e : RespState) : Bool :=
  (recvWqe c.qp).isSome || p.mask.rwr && e.lateError

/-- The NAK for a packet. -/
structure IsNak (p : Pkt) (syn : ℕ) (nak : Pkt) : Prop where
  opcode : nak.opcode = .rcAcknowledge
  psn : nak.psn = psnMask p.psn
  syndrome : nak.aeth.syn = syn

/-! ### The output queue -/

/-- The responses among some events. -/
def responses (es : List Event) : List Pkt :=
  es.filterMap fun e =>
    match e with
    | .sendResp p => some p
    | _ => none

/-- The check of `xmit_one_packet` on a response. -/
def Ctx.canRespond (c : Ctx) : Bool :=
  ArbQp.canSend { valid := c.qp.valid, respState := c.qp.resp.state } ⟨0, false⟩

/-- A call of `rxe_responder` and the queue `send_pkts` of its QP: the number of packets in
front of those of the call, the responses of the call that wait, and those the interface
was given. -/
structure OutSys where
  sys : RespSys
  ahead : ℕ
  queue : List Pkt := []
  wire : List Pkt := []

inductive OutAct
  /-- a pass of the responder -/
  | pass
  /-- another packet of the QP is queued -/
  | other
  /-- the arbiter takes the next packet; a stopped interface is no turn -/
  | xmit

/-- The state after a pass; with `rxe_bypass_arbiter` responses go to the interface at once. -/
def OutSys.handOut (bypass : Bool) (k : OutSys) (sys : RespSys) : OutSys :=
  let new := responses (sys.ctx.out.drop k.sys.ctx.out.length)
  if bypass then { k with sys, wire := k.wire ++ if k.sys.ctx.canRespond then new else [] }
  else { k with sys, queue := k.queue ++ new }

/-- A turn of the arbiter. -/
def OutSys.xmit (k : OutSys) : OutSys :=
  match k.ahead, k.queue with
  | n + 1, _ => { k with ahead := n }
  | 0, [] => k
  | 0, p :: queue => { k with queue, wire := k.wire ++ if k.sys.ctx.canRespond then [p] else [] }

/-- Another packet is queued; behind a response of the call it does not matter. -/
def OutSys.queueOther (k : OutSys) : OutSys :=
  { k with ahead := if k.queue.isEmpty then k.ahead + 1 else k.ahead }

def outStep (bypass : Bool) (k : OutSys) : OutAct → Option OutSys
  | .pass =>
    match k.sys with
    | .busy s => some (k.handOut bypass (.ofPass (respStep s)))
    | .idle _ => none
  | .other => some k.queueOther
  | .xmit => some k.xmit

/-! ### Up to the error -/

/-- The states before the error is found, with the error states. -/
def RespState.detecting : RespState → Bool
  | .getReq | .chkPsn | .chkOpSeq | .chkOpValid | .chkResource | .chkLength | .chkRkey | .execute
  | .errTooManyRdmaAtmReq | .errMissingOpcodeFirst | .errMissingOpcodeLastC
  | .errUnsupportedOpcode | .errRkeyViolation | .errLength | .errMisalignedAtomic
  | .errMalformedWqe => true
  | _ => false

/-- The states of the rest of the call. -/
def RespState.settled : RespState → Bool
  | .complete | .readReply | .acknowledge | .cleanup | .done | .exit | .errRnr | .errCqOverflow
  | .error => true
  | _ => false

theorem not_detecting_of_settled {state : RespState} (h : state.settled) :
    state.detecting = false := by
  cases state <;> first | rfl | cases h

/-- Nothing has been allocated or posted, and a receive WQE is in use or not. -/
structure Unspent (c : Ctx) (inUse : Bool) (c' : Ctx) : Prop where
  wqe : (recvWqe c'.qp).isSome = inUse
  cq : c'.cq = c.cq
  skb : c'.skb = c.skb

/-- What is known in each state of a call that began with `c` and the packet `p`. -/
def nakPhase (c : Ctx) (p : Pkt) (s : RespCfg) : Prop :=
  match s.state with
  | .getReq => s.c.qp.reqPkts.head? = some p ∧ s.c.qp.resp.res = none ∧
      psnCompare p.psn s.c.qp.resp.psn = 0 ∧ Unspent c (recvWqe c.qp).isSome s.c
  | .chkPsn => s.pkt = some p ∧ psnCompare p.psn s.c.qp.resp.psn = 0 ∧
      Unspent c (recvWqe c.qp).isSome s.c
  | .chkOpSeq | .chkOpValid | .chkResource | .errTooManyRdmaAtmReq | .errMissingOpcodeFirst
  | .errMissingOpcodeLastC | .errUnsupportedOpcode =>
    s.pkt = some p ∧ Unspent c (recvWqe c.qp).isSome s.c
  | .chkLength | .chkRkey | .execute | .errRkeyViolation | .errLength | .errMisalignedAtomic
  | .errMalformedWqe => s.pkt = some p ∧ Unspent c ((recvWqe c.qp).isSome || p.mask.rwr) s.c
  | state => state.settled

/-- The QP is an RC QP that is up and running. -/
structure RcReady (c : Ctx) : Prop where
  type : c.qp.type = .rc
  valid : c.qp.valid
  ready : c.qp.resp.state = .ready

structure Detecting (c : Ctx) (p : Pkt) (s : RespCfg) : Prop extends RcReady s.c where
  phase : nakPhase c p s

section Detect

variable {c d : Ctx} {p : Pkt} {s s' : RespCfg} {pkt : Option Pkt}

theorem nakPhase_of_settled (h : s.state.settled) : nakPhase c p s := by
  obtain ⟨state, pkt, d⟩ := s
  cases state <;> first | rfl | cases h

theorem drop_out (es : List Event) (out : List Event) : (out ++ es).drop out.length = es :=
  List.drop_left

theorem responses_same (out : List Event) : responses (out.drop out.length) = [] := by
  rw [List.drop_length]
  rfl

/-- What a pass that works on the packet may do. -/
def DetectStep (c : Ctx) (p : Pkt) (d : Ctx) (r : RespState × Ctx) : Prop :=
  Detecting c p ⟨r.1, some p, r.2⟩ ∧ responses (r.2.out.drop d.out.length) = []

theorem respCheckPsn_detect (h : Detecting c p ⟨.chkPsn, some p, d⟩) :
    DetectStep c p d (respCheckPsn d p) := by
  obtain ⟨-, hpsn, hun⟩ := h.phase
  have heq : respCheckPsn d p = (.chkOpSeq, { d with qp.resp.sentPsnNak := false }) := by
    unfold respCheckPsn
    rw [h.type, hpsn]
    rfl
  rw [heq]
  exact ⟨{ h with phase := ⟨rfl, { hun with }⟩ }, responses_same d.out⟩

theorem checkOpSeq_detect (h : Detecting c p ⟨.chkOpSeq, some p, d⟩) :
    DetectStep c p d (checkOpSeq d p) := by
  have hstate : ∃ state, checkOpSeq d p = (state, d) ∧
      (state = .chkOpValid ∨ state = .errMissingOpcodeLastC ∨ state = .errMissingOpcodeFirst) := by
    unfold checkOpSeq
    rw [h.type]
    dsimp only
    split <;> refine ⟨_, rfl, ?_⟩ <;> split <;> simp
  obtain ⟨state, heq, rfl | rfl | rfl⟩ := hstate <;> rw [heq] <;>
    exact ⟨{ h with phase := h.phase }, responses_same d.out⟩

theorem checkOpValid_detect (h : Detecting c p ⟨.chkOpValid, some p, d⟩) :
    DetectStep c p d (checkOpValid d p) := by
  unfold checkOpValid
  rw [h.type]
  dsimp only
  split <;> exact ⟨{ h with phase := h.phase }, responses_same d.out⟩

theorem checkResource_detect (h : Detecting c p ⟨.chkResource, some p, d⟩) :
    DetectStep c p d (checkResource d (some p)) := by
  obtain ⟨-, hun⟩ := h.phase
  have hready := h.ready
  -- a packet that needs no receive WQE
  have hkeep : p.mask.rwr = false → Unspent c ((recvWqe c.qp).isSome || p.mask.rwr) d := by
    intro hrwr
    rw [hrwr, Bool.or_false]
    exact hun
  unfold checkResource
  rw [if_neg (by rw [hready]; decide)]
  dsimp only
  split
  · next hrd =>
    split
    · refine ⟨{ h with phase := ⟨rfl, hkeep ?_⟩ }, responses_same d.out⟩
      unfold Pkt.mask at hrd ⊢
      generalize p.opcode = o at hrd
      cases o <;> first | rfl | cases hrd
    · exact ⟨{ h with phase := h.phase }, responses_same d.out⟩
  · split
    · next hrwr =>
      split
      · next srq _ =>
        unfold getSrqWqe
        split
        · exact ⟨{ h with phase := rfl }, responses_same d.out⟩
        · split
          · exact ⟨{ h with phase := rfl }, responses_same d.out⟩
          · have huse : ((recvWqe c.qp).isSome || p.mask.rwr) = true := by rw [hrwr, Bool.or_true]
            dsimp only
            split
            · refine ⟨{ h with phase := ⟨rfl, ?_, hun.cq, hun.skb⟩ }, ?_⟩
              · exact huse.symm
              · exact congrArg responses (drop_out [.srqLimitReached] d.out)
            · refine ⟨{ h with phase := ⟨rfl, ?_, hun.cq, hun.skb⟩ }, responses_same d.out⟩
              exact huse.symm
      · unfold takeRqHead
        by_cases hempty : d.qp.rq.live.isEmpty
        · rw [if_pos hempty]
          exact ⟨{ h with phase := rfl }, responses_same d.out⟩
        · rw [if_neg hempty]
          refine ⟨{ h with phase := ⟨rfl, ?_, hun.cq, hun.skb⟩ }, responses_same d.out⟩
          rw [hrwr, Bool.or_true]
          have hpos : 0 < d.qp.rq.live.length := by
            rw [List.length_pos_iff]
            simpa using hempty
          change (d.qp.rq.get? 0).isSome = true
          rw [RingBuf.get?_of_lt hpos]
          simpa using hpos
    · next hrwr =>
      exact ⟨{ h with phase := ⟨rfl, hkeep (by simpa using hrwr)⟩ }, responses_same d.out⟩

theorem checkRkey_detect (h : Detecting c p ⟨.chkRkey, some p, d⟩) :
    DetectStep c p d (checkRkey d p) := by
  obtain ⟨-, hun⟩ := h.phase
  obtain ⟨va, rkey, resid, mr, hc⟩ := checkRkey_frame d p
  unfold DetectStep
  rw [hc]
  rcases checkRkey_state d p with hs | ⟨-, hs | hs⟩ <;> rw [hs] <;>
    exact ⟨{ h with phase := ⟨rfl, hun.wqe, hun.cq, hun.skb⟩ }, responses_same d.out⟩

theorem sendDataIn_wqe (d : Ctx) (data : List UInt8) :
    (recvWqe (sendDataIn d data).2.qp).isSome = (recvWqe d.qp).isSome := by
  unfold sendDataIn
  split
  · rfl
  · dsimp only
    split <;> dsimp only <;> rw [recvWqe_setRecvWqe, Option.isSome_map]

theorem executeData_detect {err : RespState} (herr : (executeData d p).1 = some err) :
    err.lateError ∧ (recvWqe (executeData d p).2.qp).isSome = (recvWqe d.qp).isSome := by
  constructor
  · rcases executeData_err herr with rfl | rfl | rfl | rfl <;> rfl
  · refine executeData_inv (P := fun d' => (recvWqe d'.qp).isSome = (recvWqe d.qp).isSome)
      (fun d' data h => (sendDataIn_wqe d' data).trans h) (fun _ d' h => ?_) (fun d' h => ?_) rfl
    · obtain ⟨byte, va, resid, hd⟩ := writeDataIn_frame d' p
      rw [hd]
      exact h
    · obtain ⟨byte, orig, hd⟩ := processAtomic_frame d' p
      rw [hd]
      exact h

theorem execute_detect (h : Detecting c p ⟨.execute, some p, d⟩) :
    DetectStep c p d (execute d p) := by
  obtain ⟨-, hun⟩ := h.phase
  unfold execute
  split
  · exact ⟨{ h with phase := rfl }, congrArg responses (drop_out [.exec p _] d.out)⟩
  · obtain ⟨byte, rq, srqWqe, va, resid, orig, hc⟩ := executeData_frame d p
    split
    · next err d' hdata =>
      obtain ⟨hlate, hwqe⟩ := executeData_detect (p := p) (by rw [hdata])
      rw [hdata] at hc hwqe
      obtain rfl : d' = _ := hc
      refine ⟨{ h with phase := ?_ }, responses_same d.out⟩
      have hphase : some p = some p ∧ Unspent c ((recvWqe c.qp).isSome || p.mask.rwr) _ :=
        ⟨rfl, hwqe.trans hun.wqe, hun.cq, hun.skb⟩
      cases err <;> first | exact hphase | cases hlate
    · next d' hdata =>
      rw [hdata] at hc
      obtain rfl : d' = _ := hc
      refine ⟨{ h with phase := ?_ }, congrArg responses (drop_out [.exec p _] d.out)⟩
      refine nakPhase_of_settled (s := ⟨(executeDone _ p).1, some p, (executeDone _ p).2⟩) ?_
      unfold executeDone
      dsimp only
      split
      · rfl
      · split <;> rfl

theorem respStep_acError {syn : ℕ} {status : WcStatus}
    (he : acError e = some (syn, status)) (htype : d.qp.type = .rc) :
    respStep ⟨e, pkt, d⟩ = .inl ⟨.complete, pkt, doClassAcError d syn status⟩ := by
  cases e with
  | errRkeyViolation =>
    cases he
    unfold respStep respErrRkey
    rw [if_pos htype]
    rfl
  | errLength =>
    cases he
    unfold respStep respErrLength
    rw [if_pos htype]
    rfl
  | _ => cases he <;> rfl

theorem respStep_complete (d : Ctx) (pkt : Option Pkt) : respStep ⟨.complete, pkt, d⟩ =
    .inl ⟨(respDoComplete d pkt).1, pkt, (respDoComplete d pkt).2⟩ := rfl

theorem respStep_acknowledge (d : Ctx) (p : Pkt) : respStep ⟨.acknowledge, some p, d⟩ =
    .inl ⟨.cleanup, some p, acknowledge d p⟩ := rfl

theorem respStep_errCqOverflow (d : Ctx) (pkt : Option Pkt) : respStep ⟨.errCqOverflow, pkt, d⟩ =
    .inl ⟨.error, pkt, d⟩ := rfl

theorem readReply_settled (d : Ctx) (p : Pkt) : (readReply d p).1.settled := by
  unfold readReply
  dsimp only
  generalize (if d.qp.resp.res.isNone then initReadRes d p else d) = d
  split
  · rfl
  · split
    · rfl
    · unfold readReplyRes
      dsimp only
      split
      · rfl
      · split <;> rfl

theorem settled_step (hd : RcReady s.c) (hs : s.state.settled) (hstep : respStep s = .inl s') :
    RcReady s'.c ∧ s'.state.settled := by
  obtain ⟨state, pkt, d⟩ := s
  cases state with
  | complete =>
    cases hstep
    rcases respDoComplete_cases d pkt with ⟨-, heq⟩ | ⟨wqe, cq, -, heq | heq⟩
    · rw [heq]
      exact ⟨hd, rfl⟩
    · rw [heq]
      refine ⟨{ hd with }, ?_⟩
      -- a QP in the ready state is not failed here
      unfold respAfterCqe
      rw [if_neg (by rw [hd.ready]; decide)]
      split
      · rfl
      · split <;> rfl
    · rw [heq]
      exact ⟨{ hd with }, rfl⟩
  | readReply =>
    cases pkt with
    | none => cases hstep
    | some p =>
      cases hstep
      refine ⟨?_, readReply_settled d p⟩
      obtain ⟨-, psn, opcode, resources, resHead, mr, res, skb, es, -, hc⟩ := readReply_frame d p
      rw [hc]
      exact { hd with }
  | acknowledge =>
    cases pkt with
    | none => cases hstep
    | some p =>
      cases hstep
      refine ⟨?_, rfl⟩
      rcases acknowledge_frame d p with ⟨skb, es, -, hc⟩ | ⟨skb, es, ack, -, hc⟩ <;> rw [hc] <;>
        exact { hd with }
  | cleanup =>
    cases hstep
    exact ⟨{ hd with }, rfl⟩
  | errRnr =>
    cases pkt with
    | none => cases hstep
    | some p =>
      cases hstep
      obtain ⟨skb, es, drop, -, hc⟩ := respErrRnr_frame d p
      rw [hc]
      exact ⟨{ hd with }, rfl⟩
  | errCqOverflow =>
    cases hstep
    exact ⟨hd, rfl⟩
  | done | exit =>
    unfold respStep at hstep
    dsimp only at hstep
    split at hstep
    · cases hstep
      exact ⟨hd, rfl⟩
    · cases hstep
  | error => cases hstep
  | _ => cases hs

theorem detect_step (h : Detecting c p s) (hstep : respStep s = .inl s') :
    Detecting c p s' ∧ (s'.state.detecting → s.state.detecting ∧
      responses (s'.c.out.drop s.c.out.length) = []) := by
  by_cases hs : s.state.settled
  · obtain ⟨hd, hs'⟩ := settled_step h.toRcReady hs hstep
    refine ⟨{ hd with phase := nakPhase_of_settled hs' }, fun hdet => ?_⟩
    rw [not_detecting_of_settled hs'] at hdet
    cases hdet
  · obtain ⟨state, pkt, d⟩ := s
    -- a NAK is not sent in the pass that finds the error
    have herror : ∀ {e : RespState} {syn : ℕ} {status : WcStatus}, Detecting c p ⟨e, pkt, d⟩ →
        respStep ⟨e, pkt, d⟩ = .inl s' → acError e = some (syn, status) →
        Detecting c p s' ∧ (s'.state.detecting → e.detecting ∧
          responses (s'.c.out.drop d.out.length) = []) := by
      intro e syn status he hstep hac
      rw [respStep_acError hac he.type] at hstep
      cases hstep
      exact ⟨{ he with phase := rfl }, fun hdet => nomatch hdet⟩
    have hwork : ∀ {state : RespState} {r : RespState × Ctx}, pkt = some p → state.detecting →
        DetectStep c p d r → Sum.inl ⟨r.1, pkt, r.2⟩ = (.inl s' : RespCfg ⊕ Bool × Ctx) →
        Detecting c p s' ∧ (s'.state.detecting → state.detecting ∧
          responses (s'.c.out.drop d.out.length) = []) := by
      rintro state r rfl hdet hr hstep
      cases hstep
      exact ⟨hr.1, fun _ => ⟨hdet, hr.2⟩⟩
    cases state with
    | getReq =>
      obtain ⟨hhead, hres, hrest⟩ := h.phase
      have hready := h.ready
      have heq : getReq d pkt = (.chkPsn, some p, d) := by
        unfold getReq
        rw [if_neg (by rw [hready]; decide)]
        split
        · next hnil => simp [hnil] at hhead
        · next q qs hcons =>
          rw [hcons] at hhead
          cases hhead
          rw [hres]
          rfl
      have hstep' : respStep ⟨.getReq, pkt, d⟩ = .inl ⟨.chkPsn, some p, d⟩ := by
        unfold respStep
        rw [heq]
      rw [hstep'] at hstep
      cases hstep
      exact ⟨{ h with phase := ⟨rfl, hrest⟩ }, fun _ => ⟨rfl, responses_same d.out⟩⟩
    | chkPsn =>
      obtain ⟨rfl, -⟩ := h.phase
      exact hwork rfl rfl (respCheckPsn_detect h) hstep
    | chkOpSeq =>
      obtain ⟨rfl, -⟩ := h.phase
      exact hwork rfl rfl (checkOpSeq_detect h) hstep
    | chkOpValid =>
      obtain ⟨rfl, -⟩ := h.phase
      exact hwork rfl rfl (checkOpValid_detect h) hstep
    | chkResource =>
      obtain ⟨rfl, -⟩ := h.phase
      exact hwork rfl rfl (checkResource_detect h) hstep
    | chkLength =>
      obtain ⟨rfl, -⟩ := h.phase
      exact hwork (r := (.chkRkey, d)) rfl rfl
        ⟨{ h with phase := h.phase }, responses_same d.out⟩ hstep
    | chkRkey =>
      obtain ⟨rfl, -⟩ := h.phase
      exact hwork rfl rfl (checkRkey_detect h) hstep
    | execute =>
      obtain ⟨rfl, -⟩ := h.phase
      exact hwork rfl rfl (execute_detect h) hstep
    | errTooManyRdmaAtmReq | errMissingOpcodeFirst | errMissingOpcodeLastC | errUnsupportedOpcode
    | errRkeyViolation | errLength | errMisalignedAtomic | errMalformedWqe =>
      exact herror h hstep rfl
    | complete | readReply | acknowledge | cleanup | done | exit | errRnr | errCqOverflow | error =>
      exact absurd rfl hs
    | _ => cases h.phase

end Detect

/-- What holds of a call up to the error. -/
def OutSys.Detects (c : Ctx) (p : Pkt) (k : OutSys) : Prop :=
  match k.sys with
  | .idle _ => True
  | .busy s => Detecting c p s ∧ (s.state.detecting → k.queue = [] ∧ k.wire = [])

theorem xmit_of_nil (h : k.queue = []) :
    k.xmit.sys = k.sys ∧ k.xmit.queue = [] ∧ k.xmit.wire = k.wire := by
  unfold OutSys.xmit
  rw [h]
  split
  · exact ⟨rfl, rfl, rfl⟩
  · exact ⟨rfl, h, rfl⟩
  · next heq => cases heq

theorem xmit_sys (k : OutSys) : k.xmit.sys = k.sys := by
  unfold OutSys.xmit
  split <;> rfl

theorem handOut_of_nil (bypass : Bool) (k : OutSys) (sys : RespSys)
    (h : responses (sys.ctx.out.drop k.sys.ctx.out.length) = []) :
    (k.handOut bypass sys).sys = sys ∧ (k.handOut bypass sys).queue = k.queue ∧
      (k.handOut bypass sys).wire = k.wire := by
  unfold OutSys.handOut
  rw [h]
  split
  · exact ⟨rfl, rfl, by split <;> exact List.append_nil _⟩
  · exact ⟨rfl, List.append_nil _, rfl⟩

theorem handOut_sys (bypass : Bool) (k : OutSys) (sys : RespSys) :
    (k.handOut bypass sys).sys = sys := by
  unfold OutSys.handOut
  split <;> rfl

theorem Detects.step {bypass : Bool} {k' : OutSys}
    (h : k.Detects c p) (hstep : outStep bypass k a = some k') : k'.Detects c p := by
  unfold OutSys.Detects at h ⊢
  cases a with
  | pass =>
    unfold outStep at hstep
    dsimp only at hstep
    split at hstep
    · next s hsys =>
      cases hstep
      rw [hsys] at h
      rw [handOut_sys]
      cases hnext : respStep s with
      | inr r => trivial
      | inl s' =>
        obtain ⟨hdet, hquiet⟩ := detect_step h.1 hnext
        refine ⟨hdet, fun hd => ?_⟩
        -- as long as the request is checked nothing is handed to the interface
        obtain ⟨hs, hnil⟩ := hquiet hd
        obtain ⟨hq, hw⟩ := h.2 hs
        obtain ⟨-, hq', hw'⟩ := handOut_of_nil bypass k (.busy s')
          (by rw [hsys]; exact hnil)
        exact ⟨hq'.trans hq, hw'.trans hw⟩
    · cases hstep
  | other =>
    cases hstep
    exact h
  | xmit =>
    cases hstep
    rw [xmit_sys]
    split
    · trivial
    · next s hsys =>
      rw [hsys] at h
      refine ⟨h.1, fun hd => ?_⟩
      obtain ⟨hq, hw⟩ := h.2 hd
      obtain ⟨-, hq', hw'⟩ := xmit_of_nil hq
      exact ⟨hq', hw'.trans hw⟩

/-! ### From the error to the error state -/

theorem acError_syndrome {syn : ℕ} {status : WcStatus}
    (he : acError e = some (syn, status)) : syn ≠ aethAckUnlimited := by
  cases e <;> cases he <;> decide

theorem takeSkb_iff (c : Ctx) : c.takeSkb.1 = true ↔ c.skbRoom := by
  unfold Ctx.takeSkb Ctx.skbRoom
  cases hskb : c.skb with
  | nil => simp
  | cons b bs => simp

theorem sendAck_nak (d : Ctx) (p : Pkt) (syn : ℕ) :
    (d.skbRoom ∧ ∃ skb nak, IsNak p syn nak ∧
      sendAck d p syn p.psn = { d with skb, out := d.out ++ [.sendResp nak] }) ∨
    (¬ d.skbRoom ∧ ∃ skb, sendAck d p syn p.psn = { d with skb }) := by
  obtain ⟨skb, hskb⟩ := takeSkb_eq d
  unfold sendAck
  split
  · next d' hprep =>
    refine Or.inr ⟨fun hroom => ?_, skb, (prepareAckPacket_none_zero hprep).trans hskb⟩
    unfold prepareAckPacket at hprep
    rw [show d.takeSkb = (true, d.takeSkb.2) from Prod.ext ((takeSkb_iff d).2 hroom) rfl] at hprep
    simp at hprep
  · next nak d' hprep =>
    obtain ⟨hd', hop, hpsn, hsyn, -, -⟩ := prepareAckPacket_some hprep
    refine Or.inl ⟨?_, skb, nak, ⟨hop, hpsn, hsyn rfl⟩, ?_⟩
    · rw [← takeSkb_iff]
      by_contra hfail
      unfold prepareAckPacket at hprep
      rw [show d.takeSkb = (false, d.takeSkb.2) from Prod.ext (by simpa using hfail) rfl] at hprep
      simp at hprep
    · rw [hd', hskb]
      rfl

theorem respDoComplete_room (hd : RcReady d) (hwqe : (recvWqe d.qp).isSome) :
    (d.cqRoom ∧ ∃ cq e, responses [e] = [] ∧ respDoComplete d (some p) =
      (.acknowledge, { retireRecvWqe d with cq, out := d.out ++ [e] })) ∨
    (¬ d.cqRoom ∧ ∃ cq e, responses [e] = [] ∧ respDoComplete d (some p) =
      (.errCqOverflow, { retireRecvWqe d with cq, out := d.out ++ [e] })) := by
  obtain ⟨wqe, hwqe⟩ := Option.isSome_iff_exists.1 hwqe
  have hafter : ∀ out cq,
      respAfterCqe { retireRecvWqe d with cq, out } (some p) = .acknowledge := by
    intro out cq
    unfold respAfterCqe
    rw [if_neg, if_neg (by simp), if_pos]
    · exact hd.type
    · change d.qp.resp.state ≠ .error
      rw [hd.ready]
      decide
  unfold respDoComplete Ctx.cqPost Ctx.cqRoom
  rw [hwqe]
  change ((retireRecvWqe d).cq.head? ≠ some false ∧ _) ∨
      (¬ (retireRecvWqe d).cq.head? ≠ some false ∧ _)
  cases hcq : (retireRecvWqe d).cq with
  | nil => exact Or.inl ⟨by simp, (retireRecvWqe d).cq, _, rfl, Prod.ext (hafter _ _) rfl⟩
  | cons b bs =>
    cases b with
    | true => exact Or.inl ⟨by simp, bs, _, rfl, Prod.ext (hafter _ bs) rfl⟩
    | false => exact Or.inr ⟨by simp, bs, _, rfl, rfl⟩

/-- The responder gets to send the NAK. -/
def Ctx.sendsNak (c : Ctx) : Prop := (recvWqe c.qp).isSome ∧ c.cqRoom ∧ c.skbRoom

/-- No response of the call yet. -/
def OutSys.Quiet (k : OutSys) : Prop := k.queue = [] ∧ k.wire = []

/-- The NAK is out, or waits. -/
def OutSys.Sent (bypass : Bool) (p : Pkt) (syn : ℕ) (k : OutSys) : Prop :=
  ∃ nak, IsNak p syn nak ∧
    (k.queue = [] ∧ k.wire = [nak] ∨ bypass = false ∧ k.queue = [nak] ∧ k.wire = [])

/-- The output of the call where `acknowledge` is over. -/
def OutSys.Answered (bypass : Bool) (c₁ : Ctx) (p : Pkt) (syn : ℕ) (k : OutSys) : Prop :=
  c₁.sendsNak ∧ k.Sent bypass p syn ∨ ¬ c₁.sendsNak ∧ k.Quiet

/-- The call from the pass that found the error `e` on. -/
inductive Reporting (bypass : Bool) (c₁ : Ctx) (p : Pkt) (e : RespState) (syn : ℕ)
    (status : WcStatus) (k : OutSys) : Prop
  | found (hsys : k.sys = .busy ⟨e, some p, c₁⟩) (hquiet : k.Quiet)
  | complete (hsys : k.sys = .busy ⟨.complete, some p, doClassAcError c₁ syn status⟩)
      (hquiet : k.Quiet)
  | acknowledge {d : Ctx} (hsys : k.sys = .busy ⟨.acknowledge, some p, d⟩) (hd : RcReady d)
      (hgo : d.qp.resp.gotoError) (hsyn : d.qp.resp.aethSyndrome = syn) (hskb : d.skb = c₁.skb)
      (hwqe : (recvWqe c₁.qp).isSome) (hcq : c₁.cqRoom) (hquiet : k.Quiet)
  | overflow {d : Ctx} (hsys : k.sys = .busy ⟨.errCqOverflow, some p, d⟩) (hd : RcReady d)
      (hcq : ¬ c₁.cqRoom) (hquiet : k.Quiet)
  | leaving {state : RespState} {d : Ctx} (hstate : state = .cleanup ∨ state = .done)
      (hsys : k.sys = .busy ⟨state, some p, d⟩) (hd : RcReady d) (hgo : d.qp.resp.gotoError)
      (hout : k.Answered bypass c₁ p syn)
  | error {d : Ctx} (hsys : k.sys = .busy ⟨.error, some p, d⟩) (hd : RcReady d)
      (hout : k.Answered bypass c₁ p syn)
  | finished {d : Ctx} (hsys : k.sys = .idle d)

section Report

variable {bypass : Bool} {c₁ : Ctx} {p : Pkt} {e : RespState} {syn : ℕ} {status : WcStatus}
  {k k' : OutSys}

theorem OutSys.Quiet.handOut (h : k.Quiet) (es : List Event)
    (hout : sys.ctx.out = k.sys.ctx.out ++ es) (hes : responses es = []) :
    (k.handOut bypass sys).Quiet := by
  obtain ⟨-, hq, hw⟩ := handOut_of_nil bypass k sys
    (by rw [hout, drop_out, hes])
  exact ⟨hq.trans h.1, hw.trans h.2⟩

theorem OutSys.Answered.handOut (h : k.Answered bypass c₁ p syn)
    (hout : sys.ctx.out = k.sys.ctx.out) : (k.handOut bypass sys).Answered bypass c₁ p syn := by
  obtain ⟨-, hq, hw⟩ := handOut_of_nil bypass k sys
    (by rw [hout, responses_same])
  unfold OutSys.Answered OutSys.Sent OutSys.Quiet at h ⊢
  rw [hq, hw]
  exact h

theorem OutSys.Quiet.handOut_nak (h : k.Quiet) {nak : Pkt} (hnak : IsNak p syn nak)
    (hcan : k.sys.ctx.canRespond) (hout : sys.ctx.out = k.sys.ctx.out ++ [.sendResp nak]) :
    (k.handOut bypass sys).Sent bypass p syn := by
  have hnew : responses (sys.ctx.out.drop k.sys.ctx.out.length) = [nak] := by
    rw [hout, drop_out]
    rfl
  refine ⟨nak, hnak, ?_⟩
  unfold OutSys.handOut
  rw [hnew, hcan, h.1, h.2]
  cases bypass with
  | true => exact Or.inl ⟨rfl, rfl⟩
  | false => exact Or.inr ⟨rfl, rfl, rfl⟩

theorem OutSys.Quiet.xmit (h : k.Quiet) : k.xmit.Quiet := by
  obtain ⟨-, hq, hw⟩ := xmit_of_nil h.1
  exact ⟨hq, hw.trans h.2⟩

theorem OutSys.Answered.xmit (h : k.Answered bypass c₁ p syn) (hcan : k.sys.ctx.canRespond) :
    k.xmit.Answered bypass c₁ p syn := by
  rcases h with ⟨hsends, nak, hnak, hout⟩ | ⟨hsends, hquiet⟩
  · refine Or.inl ⟨hsends, nak, hnak, ?_⟩
    rcases hout with ⟨hq, hw⟩ | ⟨hb, hq, hw⟩
    · obtain ⟨-, hq', hw'⟩ := xmit_of_nil hq
      exact Or.inl ⟨hq', hw'.trans hw⟩
    · unfold OutSys.xmit
      rw [hq, hw, hcan]
      split
      · exact Or.inr ⟨hb, rfl, rfl⟩
      · next heq => cases heq
      · next heq =>
        cases heq
        exact Or.inl ⟨rfl, rfl⟩
  · exact Or.inr ⟨hsends, hquiet.xmit⟩

theorem RcReady.canRespond (h : RcReady d) : d.canRespond := by
  simp [Ctx.canRespond, ArbQp.canSend, h.valid, h.ready]

theorem Reporting.pass {s : RespCfg} (h : Reporting bypass c₁ p e syn status k)
    (hc₁ : RcReady c₁) (he : acError e = some (syn, status)) (hsys : k.sys = .busy s) :
    Reporting bypass c₁ p e syn status (k.handOut bypass (.ofPass (respStep s))) := by
  cases h with
  | found hs hquiet =>
    cases hsys.symm.trans hs
    rw [respStep_acError he hc₁.type]
    refine .complete (handOut_sys ..) (hquiet.handOut [] ?_ rfl)
    rw [hsys, List.append_nil]
    rfl
  | complete hs hquiet =>
    cases hsys.symm.trans hs
    have hd : RcReady (doClassAcError c₁ syn status) := { hc₁ with }
    -- a request that uses a receive WQE gets its NAK only after the completion
    by_cases hwqe : (recvWqe c₁.qp).isSome
    · rcases respDoComplete_room (p := p) hd hwqe with
        ⟨hroom, cq, ev, hev, heq⟩ | ⟨hroom, cq, ev, hev, heq⟩
      · rw [respStep_complete, heq]
        refine .acknowledge (handOut_sys ..) { hd with } rfl rfl rfl hwqe hroom
          (hquiet.handOut [ev] ?_ hev)
        rw [hsys]
        rfl
      · rw [respStep_complete, heq]
        refine .overflow (handOut_sys ..) { hd with } hroom (hquiet.handOut [ev] ?_ hev)
        rw [hsys]
        rfl
    · have heq : respDoComplete (doClassAcError c₁ syn status) (some p) =
          (.cleanup, doClassAcError c₁ syn status) := by
        rcases respDoComplete_cases (doClassAcError c₁ syn status) (some p) with
          ⟨-, heq⟩ | ⟨wqe, cq, hsome, -⟩
        · exact heq
        · refine absurd ?_ hwqe
          rw [show recvWqe c₁.qp = some wqe from hsome]
          rfl
      rw [respStep_complete, heq]
      refine .leaving (Or.inl rfl) (handOut_sys ..) hd rfl
        (Or.inr ⟨fun hsends => hwqe hsends.1, hquiet.handOut [] ?_ rfl⟩)
      rw [hsys, List.append_nil]
      rfl
  | acknowledge hs hd hgo hsyn hskb hwqe hcq hquiet =>
    next d =>
    cases hsys.symm.trans hs
    have hcan : k.sys.ctx.canRespond := by
      rw [hsys]
      exact hd.canRespond
    have hack : Rxe.acknowledge d p = sendAck d p syn p.psn := by
      unfold Rxe.acknowledge
      rw [if_neg (by simp [hd.type]), hsyn, if_pos (acError_syndrome he)]
    have hroom : d.skbRoom ↔ c₁.skbRoom := by
      unfold Ctx.skbRoom
      rw [hskb]
    rw [respStep_acknowledge, hack]
    rcases sendAck_nak d p syn with ⟨hok, skb, nak, hnak, heq⟩ | ⟨hok, skb, heq⟩
    · rw [heq]
      refine .leaving (Or.inl rfl) (handOut_sys ..) { hd with } hgo
        (Or.inl ⟨⟨hwqe, hcq, hroom.1 hok⟩, hquiet.handOut_nak hnak hcan ?_⟩)
      rw [hsys]
      rfl
    · rw [heq]
      refine .leaving (Or.inl rfl) (handOut_sys ..) { hd with } hgo
        (Or.inr ⟨fun hsends => hok (hroom.2 hsends.2.2), hquiet.handOut [] ?_ rfl⟩)
      rw [hsys, List.append_nil]
      rfl
  | overflow hs hd hcq hquiet =>
    next d =>
    cases hsys.symm.trans hs
    refine .error (handOut_sys ..) hd
      (Or.inr ⟨fun hsends => hcq hsends.2.1, hquiet.handOut [] ?_ rfl⟩)
    rw [hsys, List.append_nil]
    rfl
  | leaving hstate hs hd hgo hout =>
    next state d =>
    cases hsys.symm.trans hs
    rcases hstate with rfl | rfl
    · refine .leaving (Or.inr rfl) (handOut_sys ..) { hd with } hgo (hout.handOut ?_)
      rw [hsys]
      rfl
    · have hstep : respStep ⟨.done, some p, d⟩ = .inl ⟨.error, some p, d⟩ := by
        exact if_pos hgo
      rw [hstep]
      refine .error (handOut_sys ..) hd (hout.handOut ?_)
      rw [hsys]
      rfl
  | error hs hd hout =>
    cases hsys.symm.trans hs
    exact .finished (handOut_sys ..)
  | finished hs => cases hsys.symm.trans hs

theorem Reporting.between (h : Reporting bypass c₁ p e syn status k) (hsys : k'.sys = k.sys)
    (hquiet : k.Quiet → k'.Quiet) (hout : k.sys.ctx.canRespond → k.Answered bypass c₁ p syn →
      k'.Answered bypass c₁ p syn) : Reporting bypass c₁ p e syn status k' := by
  cases h with
  | found hs hq => exact .found (hsys.trans hs) (hquiet hq)
  | complete hs hq => exact .complete (hsys.trans hs) (hquiet hq)
  | acknowledge hs hd hgo hsyn hskb hwqe hcq hq =>
    exact .acknowledge (hsys.trans hs) hd hgo hsyn hskb hwqe hcq (hquiet hq)
  | overflow hs hd hcq hq => exact .overflow (hsys.trans hs) hd hcq (hquiet hq)
  | leaving hstate hs hd hgo hans =>
    exact .leaving hstate (hsys.trans hs) hd hgo (hout (by rw [hs]; exact hd.canRespond) hans)
  | error hs hd hans =>
    exact .error (hsys.trans hs) hd (hout (by rw [hs]; exact hd.canRespond) hans)
  | finished hs => exact .finished (hsys.trans hs)

theorem Reporting.step (hc₁ : RcReady c₁) (he : acError e = some (syn, status))
    (h : Reporting bypass c₁ p e syn status k) (hstep : outStep bypass k a = some k') :
    Reporting bypass c₁ p e syn status k' := by
  cases a with
  | pass =>
    unfold outStep at hstep
    dsimp only at hstep
    split at hstep
    · next s hsys =>
      cases hstep
      exact h.pass hc₁ he hsys
    · cases hstep
  | other =>
    cases hstep
    exact h.between rfl id fun _ => id
  | xmit =>
    cases hstep
    exact h.between (xmit_sys k) OutSys.Quiet.xmit fun hcan hans => hans.xmit hcan

theorem rxeQpError_state (d : Ctx) : (rxeQpError d).qp.resp.state = .error := by
  obtain ⟨req, sq, respPkts, cq, es, -, hc⟩ := rxeQpError_frame d
  rw [hc]

theorem run_error (n : ℕ) (pkt : Option Pkt) (c : Ctx) : Loop.run respStep (n + 1)
    ⟨.error, pkt, c⟩ = some (false, rxeQpError { c with qp.resp.gotoError := false }) :=
  Loop.run_succ_inr rfl

theorem run_cleanup_error (n : ℕ) (pkt : Option Pkt) (hgo : c.qp.resp.gotoError) :
    Loop.run respStep (n + 3) ⟨.cleanup, pkt, c⟩ =
      some (false, rxeQpError { cleanup c pkt with qp.resp.gotoError := false }) := by
  have hdone : respStep ⟨.done, pkt, cleanup c pkt⟩ = .inl ⟨.error, pkt, cleanup c pkt⟩ := by
    exact if_pos hgo
  rw [Loop.run_succ_inl (show respStep ⟨.cleanup, pkt, c⟩ = .inl _ from rfl),
    Loop.run_succ_inl hdone, run_error]

theorem acError_run (p : Pkt) (hc₁ : RcReady c₁) (he : acError e = some (syn, status)) :
    ∃ c', Loop.run respStep 6 ⟨e, some p, c₁⟩ = some (false, c') ∧ c'.qp.resp.state = .error := by
  have hd : RcReady (doClassAcError c₁ syn status) := { hc₁ with }
  rw [Loop.run_succ_inl (respStep_acError he hc₁.type), Loop.run_succ_inl (respStep_complete _ _)]
  -- `do_complete`, `acknowledge`, `cleanup` and `done` follow, or the CQ is full
  rcases respDoComplete_cases (doClassAcError c₁ syn status) (some p) with
    ⟨-, heq⟩ | ⟨wqe, cq, -, heq | heq⟩
  · rw [heq]
    exact ⟨_, run_cleanup_error 1 _ rfl, rxeQpError_state _⟩
  · have hafter : respAfterCqe (doClassAcError c₁ syn status) (some p) = .acknowledge := by
      unfold respAfterCqe
      rw [if_neg (by rw [hd.ready]; decide), if_neg (by simp), if_pos hd.type]
    rw [heq, hafter, Loop.run_succ_inl (respStep_acknowledge _ _)]
    refine ⟨_, run_cleanup_error 0 _ ?_, rxeQpError_state _⟩
    rcases acknowledge_frame { retireRecvWqe (doClassAcError c₁ syn status) with
      cq, out := _ } p with ⟨skb, es, -, hc⟩ | ⟨skb, es, ack, -, hc⟩ <;> rw [hc] <;> rfl
  · rw [heq, Loop.run_succ_inl (respStep_errCqOverflow _ _)]
    exact ⟨_, run_error 2 _ _, rxeQpError_state _⟩

theorem answered_iff (h : k.Answered bypass c₁ p syn) :
    (∃ nak, IsNak p syn nak ∧ k.wire = [nak]) ↔ c₁.sendsNak ∧ (bypass ∨ k.queue = []) := by
  rcases h with ⟨hsends, nak, hnak, ⟨hq, hw⟩ | ⟨hb, hq, hw⟩⟩ | ⟨hsends, hq, hw⟩
  · exact ⟨fun _ => ⟨hsends, Or.inr hq⟩, fun _ => ⟨nak, hnak, hw⟩⟩
  · constructor
    · rintro ⟨nak', -, hw'⟩
      rw [hw] at hw'
      cases hw'
    · rintro ⟨-, hb' | hq'⟩
      · rw [hb] at hb'
        cases hb'
      · rw [hq] at hq'
        cases hq'
  · constructor
    · rintro ⟨nak', -, hw'⟩
      rw [hw] at hw'
      cases hw'
    · exact fun h => absurd h.1 hsends

theorem rxeQpError_out (hrc : d.qp.type = .rc) :
    (rxeQpError d).out = d.out ++ [.runResp, .runComp, .runReq] := by
  unfold rxeQpError
  dsimp only
  rw [if_pos (show ((toErrorState d).emit .runResp).qp.type = .rc from hrc)]
  simp [Ctx.emit, toErrorState]

theorem error_pass (hd : RcReady d) (hsys : k.sys = .busy ⟨.error, some p, d⟩)
    (hpass : outStep bypass k .pass = some k') :
    k'.sys = .idle (rxeQpError { d with qp.resp.gotoError := false }) ∧ k'.wire = k.wire := by
  unfold outStep at hpass
  rw [hsys] at hpass
  cases hpass
  refine ⟨handOut_sys .., ?_⟩
  refine (handOut_of_nil _ _ _ ?_).2.2
  rw [hsys]
  change responses ((rxeQpError { d with qp.resp.gotoError := false }).out.drop d.out.length) = []
  rw [rxeQpError_out (d := { d with qp.resp.gotoError := false }) hd.type, drop_out]
  rfl

end Report

theorem wire_of_error {bypass : Bool} {k' : OutSys} (hsys : k.sys = .idle d)
    (herr : d.qp.resp.state = .error) (hstep : outStep bypass k a = some k') :
    k'.sys = .idle d ∧ k'.wire = k.wire := by
  have hcan : k.sys.ctx.canRespond = false := by
    rw [hsys]
    simp [Ctx.canRespond, ArbQp.canSend, RespSys.ctx, herr]
  cases a with
  | pass =>
    unfold outStep at hstep
    rw [hsys] at hstep
    cases hstep
  | other =>
    cases hstep
    exact ⟨hsys, rfl⟩
  | xmit =>
    cases hstep
    refine ⟨(xmit_sys k).trans hsys, ?_⟩
    unfold OutSys.xmit
    rw [hcan]
    split
    · rfl
    · rfl
    · exact List.append_nil _

theorem detects_enter (hready : RcReady c) (hhead : c.qp.reqPkts.head? = some p)
    (hres : c.qp.resp.res = none) (hpsn : psnCompare p.psn c.qp.resp.psn = 0) (ahead : ℕ) :
    OutSys.Detects c p { sys := respEnter c, ahead } := by
  have henter : respEnter c =
      .busy ⟨.getReq, none, { c with qp.resp.aethSyndrome := aethAckUnlimited }⟩ := by
    unfold respEnter
    rw [if_neg (by simp [hready.valid]), if_neg (by rw [hready.ready]; decide)]
  rw [henter]
  exact ⟨{ hready with phase := ⟨hhead, hres, hpsn, rfl, rfl, rfl⟩ }, fun _ => ⟨rfl, rfl⟩⟩

theorem Detecting.unspent {r : ℕ × WcStatus}
    (h : Detecting c p ⟨e, some p, d⟩) (he : acError e = some r) :
    Unspent c (c.recvInUse p e) d := by
  have hphase := h.phase
  cases e with
  | errTooManyRdmaAtmReq | errMissingOpcodeFirst | errMissingOpcodeLastC | errUnsupportedOpcode =>
    obtain ⟨hwqe, hcq, hskb⟩ := hphase.2
    exact ⟨hwqe.trans (by simp [Ctx.recvInUse, RespState.lateError]), hcq, hskb⟩
  | errRkeyViolation | errLength | errMisalignedAtomic | errMalformedWqe =>
    obtain ⟨hwqe, hcq, hskb⟩ := hphase.2
    exact ⟨hwqe.trans (by simp [Ctx.recvInUse, RespState.lateError]), hcq, hskb⟩
  | _ => cases he

open Trace in
/-- Class A and C errors.  Where a call of `rxe_responder` finds such an error in a packet at
the expected PSN, the call moves the QP to the error state, and from there on the interface
has been given one NAK with the PSN of the packet and the syndrome of the error, and nothing
else, exactly when a receive WQE was in use, the CQ had room, the NAK could be allocated, and
the NAK did not wait for the arbiter any more when the call came to the error state. -/
theorem class_ac_error_nak_iff (bypass : Bool) (c c₁ c₂ : Ctx) (p : Pkt) (ahead : ℕ) (e : RespState)
    (syn : ℕ) (status : WcStatus) (k₁ k₂ k₃ k₄ : OutSys) (hready : RcReady c)
    (hhead : c.qp.reqPkts.head? = some p) (hres : c.qp.resp.res = none)
    (hpsn : psnCompare p.psn c.qp.resp.psn = 0)
    (h₁ : Reach (outStep bypass) (fun _ _ => True) { sys := respEnter c, ahead } k₁)
    (hfound : k₁.sys = .busy ⟨e, some p, c₁⟩) (he : acError e = some (syn, status))
    (h₂ : Reach (outStep bypass) (fun _ _ => True) k₁ k₂)
    (herror : k₂.sys = .busy ⟨.error, some p, c₂⟩) (hpass : outStep bypass k₂ .pass = some k₃)
    (h₄ : Reach (outStep bypass) (fun _ _ => True) k₃ k₄) :
    (∃ c', Loop.run respStep 6 ⟨e, some p, c₁⟩ = some (false, c') ∧ c'.qp.resp.state = .error) ∧
    k₄.sys.ctx.qp.resp.state = .error ∧
    ((∃ nak, IsNak p syn nak ∧ k₄.wire = [nak]) ↔
      c.recvInUse p e ∧ c.cqRoom ∧ c.skbRoom ∧ (bypass ∨ k₂.queue = [])) := by
  have hdetects : k₁.Detects c p := Reach.inv (detects_enter hready hhead hres hpsn ahead)
    (fun _ _ _ h _ hstep => Detects.step h hstep) h₁
  unfold OutSys.Detects at hdetects
  rw [hfound] at hdetects
  obtain ⟨hdet, hquiet⟩ := hdetects
  have hc₁ : RcReady c₁ := hdet.toRcReady
  obtain ⟨hwqe, hcq, hskb⟩ := hdet.unspent he
  have hreport : Reporting bypass c₁ p e syn status k₂ := by
    refine Reach.inv (.found hfound (hquiet ?_)) (fun _ _ _ h _ hstep => h.step hc₁ he hstep) h₂
    cases e <;> first | rfl | cases he
  refine ⟨acError_run p hc₁ he, ?_⟩
  cases hreport with
  | found hs _ =>
    cases herror.symm.trans hs
    cases he
  | complete hs _ => cases herror.symm.trans hs
  | acknowledge hs _ _ _ _ _ _ _ => cases herror.symm.trans hs
  | overflow hs _ _ _ => cases herror.symm.trans hs
  | leaving hstate hs _ _ _ =>
    cases herror.symm.trans hs
    rcases hstate with hs | hs <;> cases hs
  | finished hs => cases herror.symm.trans hs
  | error hs hd hout =>
    cases herror.symm.trans hs
    obtain ⟨hsys₃, hwire₃⟩ := error_pass hd herror hpass
    -- in the error state no packet leaves any more
    have hlater : k₄.sys = k₃.sys ∧ k₄.wire = k₃.wire := by
      refine Reach.inv (I := fun k => k.sys = k₃.sys ∧ k.wire = k₃.wire) ⟨rfl, rfl⟩ ?_ h₄
      intro k a k' hk _ hstep
      obtain ⟨hsys, hwire⟩ := wire_of_error (hk.1.trans hsys₃) (rxeQpError_state _) hstep
      exact ⟨hsys.trans hsys₃.symm, hwire.trans hk.2⟩
    have hsends : c₁.sendsNak ↔ c.recvInUse p e ∧ c.cqRoom ∧ c.skbRoom := by
      unfold Ctx.sendsNak Ctx.cqRoom Ctx.skbRoom
      rw [hwqe, hcq, hskb]
    refine ⟨by rw [hlater.1, hsys₃]; exact rxeQpError_state _, ?_⟩
    rw [hlater.2, hwire₃, answered_iff hout, hsends]
    tauto

/-- An RC responder with a receive WQE of no bytes. -/
def tightQp : Ctx :=
  { qp :=
      { type := .rc, attr.qpAccessFlags := [.remoteRead], attr.maxRdAtomic := 1, sq := ⟨[], []⟩
        rq := ⟨[{}], []⟩, resp.state := .ready } }

/-- A send of one byte. -/
def longSend : Pkt := { opcode := .rcSendOnly, payload := [1] }

/-- An RDMA READ under a key of no region. -/
def badRead : Pkt := { opcode := .rcRdmaReadRequest, reth := ⟨0, 7, 8⟩ }

/-- The passes of a call, with what the arbiter does after them. -/
def nakRun (bypass : Bool) (p : Pkt) (acts : List OutAct) : Option OutSys :=
  acts.foldlM (outStep bypass) { sys := respEnter (rxeRespQueuePkt tightQp p), ahead := 0 }

/-- The same in the middle of another send. -/
def midSendQp : Ctx :=
  { tightQp with qp.resp.opcode := some .rcSendFirst, qp.resp.wqe := some (.rq 0) }

open Trace in
/-- A send out of sequence is answered with a NAK where the arbiter is bypassed. -/
theorem class_ac_error_nak_send : ∃ k nak,
    (List.replicate 9 .pass).foldlM (outStep true)
        { sys := respEnter (rxeRespQueuePkt midSendQp longSend), ahead := 0 } = some k ∧
      k.sys.ctx.qp.resp.state = .error ∧ IsNak longSend aethNakInvalidReq nak ∧ k.wire = [nak] := by
  obtain ⟨-, hstate, hsent⟩ := class_ac_error_nak_iff true (rxeRespQueuePkt midSendQp longSend) _ _
    longSend 0 .errMissingOpcodeLastC aethNakInvalidReq .remInvReqErr _ _ _ _ ⟨rfl, rfl, rfl⟩ rfl
    rfl (by decide)
    (.next (.next (.next .start (a := .pass) trivial rfl) (a := .pass) trivial rfl)
      (a := .pass) trivial rfl) rfl rfl
    (.next (.next (.next (.next (.next .start (a := .pass) trivial rfl) (a := .pass) trivial rfl)
      (a := .pass) trivial rfl) (a := .pass) trivial rfl) (a := .pass) trivial rfl) rfl rfl .start
  obtain ⟨nak, hnak, hwire⟩ := hsent.2 ⟨by decide, nofun, nofun, Or.inl rfl⟩
  exact ⟨_, nak, rfl, hstate, hnak, hwire⟩

/-- The read is not answered: no receive WQE is in use.  The NAK for the send is dropped by
an arbiter that comes after the error state. -/
theorem class_ac_error_no_nak :
    (nakRun true badRead (List.replicate 12 .pass)).map (fun k =>
      (k.wire, k.sys.ctx.qp.resp.state)) = some ([], .error) ∧
    (nakRun false longSend (List.replicate 14 .pass ++ [.xmit])).map (fun k =>
      (k.queue, k.wire, k.sys.ctx.qp.resp.state)) = some ([], [], .error) :=
  ⟨by decide +kernel, by decide +kernel⟩

end Rxe
