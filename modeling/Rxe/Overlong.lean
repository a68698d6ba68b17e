/-
SENDs that are longer than the receive WQE.

`send_data_in` has two ways to fail: RESPST_ERR_LENGTH where `copy_data` runs out of SGEs, and
RESPST_ERR_MALFORMED_WQE for its other errors.  `copy_data` compares the length of a packet
with what is left of the WQE before it looks at an SGE, and a WQE that was posted is never
longer than its SGEs.  So the packet with which a message gets too long is found to be an error
of the WQE, for every type of QP.

* `executeData_store` — which SEND packets are stored;
* `RefusedSend` — what a call makes of one that is not;
* `overlong_send_malformed` — a SEND is stored as long as it fits; the first packet that does
  not fit ends in a completion with IB_WC_LOC_QP_OP_ERR, on RC in a NAK for a remote operational
  error, and in the error state;
* `overlong_send_no_length_error` — on RC, UC and UD nothing of the path for length errors is
  taken.
-/
import Rxe.ErrorNak
import Rxe.RecvMessage

namespace Rxe

/-! ### What is stored -/

section Store

variable {c : Ctx} {p : Pkt} {w : RecvWqe} {k : ℕ}

theorem sendDataIn_store (hw : recvWqe c.qp = some w) (hholds : w.holds k) (data : List UInt8) :
    ∃ dma, recvWqe (sendDataIn c data).2.qp = some { w with dma } ∧
      dma.length = w.dma.length ∧ dma.sge = w.dma.sge ∧
      ((sendDataIn c data).1 = some .errMalformedWqe ∨
        (sendDataIn c data).1 = none ∧ dma.At (k + data.length)) ∧
      (Usable c.dev c.qp.pd w.dma.sge → w.dma.length < 2 ^ 31 → k + data.length ≤ w.dma.length →
        (sendDataIn c data).1 = none) := by
  obtain ⟨hat, hfits⟩ := hholds
  obtain ⟨dma, dev, r, hcopy, hlen, hsge, hc, hres⟩ := sendDataIn_copy hw hat hfits data
  refine ⟨dma, ?_, hlen, hsge, hres.imp And.left fun h => ⟨h.1, h.2.2⟩, fun hsges hlt hroom => ?_⟩
  · rw [hc, recvWqe_setRecvWqe]
    exact congrArg (Option.map _) hw
  · obtain ⟨dma', dev', heq⟩ := copyDataIn_usable hat hsges hfits hlt hroom
    rw [heq] at hcopy
    cases hcopy
    rcases hres with ⟨-, hno⟩ | ⟨hnone, -⟩
    · exact absurd rfl hno
    · exact hnone

/-- A SEND packet is stored if it fits behind what the WQE has taken; if it does not fit the
WQE is found to be malformed. -/
theorem executeData_store (hsend : p.mask.send) (hw : recvWqe c.qp = some w) (hholds : w.holds k) :
    (∃ dma, recvWqe (executeData c p).2.qp = some { w with dma }) ∧
      (w.dma.length < k + p.stored c.qp.type → (executeData c p).1 = some .errMalformedWqe) ∧
      (Usable c.dev c.qp.pd w.dma.sge → w.dma.length < 2 ^ 31 →
        k + p.stored c.qp.type ≤ w.dma.length → (executeData c p).1 = none) := by
  unfold executeData Pkt.stored
  rw [if_pos hsend]
  split
  · -- a datagram: the GRH, and behind it the payload
    obtain ⟨dma, hrecv, hlen, hsge, hres, hroom⟩ := sendDataIn_store hw hholds p.grh
    obtain ⟨byte, rq, srqWqe, hframe⟩ := sendDataIn_frame c p.grh
    obtain ⟨⟨err, c₁⟩, hgrh⟩ : ∃ r, sendDataIn c p.grh = r := ⟨_, rfl⟩
    rw [hgrh] at hrecv hres hroom hframe ⊢
    rcases hres with hbad | ⟨hok, hat⟩
    · cases hbad
      refine ⟨⟨dma, hrecv⟩, fun _ => rfl, fun huse hlt hfits => ?_⟩
      cases hroom huse hlt (by omega)
    · cases hok
      have hholds₁ : RecvWqe.holds { w with dma } (k + p.grh.length) :=
        ⟨hat, by dsimp only; rw [hlen, hsge]; exact hholds.2⟩
      obtain ⟨dma', hrecv', hlen', -, hres', hroom'⟩ := sendDataIn_store hrecv hholds₁ p.payload
      refine ⟨⟨dma', hrecv'⟩, fun hlong => ?_, fun huse hlt hfits => hroom' ?_ ?_ ?_⟩
      · rcases hres' with hbad | ⟨-, hat'⟩
        -- a cursor that has moved that far would be outside the buffer
        · exact hbad
        · have hresid := hat'.resid
          rw [hlen', hlen] at hresid
          omega
      · rw [show c₁ = _ from hframe, hsge]
        exact huse
      · rwa [hlen]
      · dsimp only
        omega
  · obtain ⟨dma, hrecv, hlen, -, hres, hroom⟩ := sendDataIn_store hw hholds p.payload
    refine ⟨⟨dma, hrecv⟩, fun hlong => ?_, hroom⟩
    rcases hres with hbad | ⟨-, hat⟩
    · exact hbad
    · have hresid := hat.resid
      omega

theorem execute_send (hsend : p.mask.send) {err : Option RespState} {d : Ctx}
    (hdata : executeData c p = (err, d)) :
    execute c p = err.elim (executeDone d p) fun e => (e, d) := by
  unfold execute
  rw [if_neg (by rw [hsend]; simp), hdata]
  cases err <;> rfl

end Store

/-! ### What is reported -/

/-- What the responder tells about a packet: that it was executed, a completion, an answer. -/
inductive RespReport
  | executed (p : Pkt)
  | cqe (wc : Wc)
  | answer (p : Pkt)

def Event.report? : Event → Option RespReport
  | .exec p _ => some (.executed p)
  | .recvCqe wc _ => some (.cqe wc)
  | .sendResp p => some (.answer p)
  | _ => none

theorem report_coarse : Coarse Event.report? :=
  ⟨fun _ _ => rfl, rfl, fun _ _ => rfl, rfl, rfl, rfl, rfl⟩

/-- The call refuses the packet with an error of the WQE `w`: the QP is in the error state, the
WQE is completed with IB_WC_LOC_QP_OP_ERR if the CQ has room, and then an RC peer gets a NAK for
a remote operational error if it can be allocated. -/
structure RefusedSend (c : Ctx) (w : RecvWqe) (p : Pkt) (c' : Ctx) : Prop where
  error : c'.qp.resp.state = .error
  full : ¬ c.cqRoom → seen Event.report? c' = seen Event.report? c
  nak : c.cqRoom → c.qp.type = .rc ∧ c.skbRoom → ∃ nak, IsNak p aethNakRemOpErr nak ∧
    seen Event.report? c' = seen Event.report? c ++
      [.cqe { wrId := w.wrId, status := .locQpOpErr }, .answer nak]
  noNak : c.cqRoom → ¬ (c.qp.type = .rc ∧ c.skbRoom) →
    seen Event.report? c' = seen Event.report? c ++
      [.cqe { wrId := w.wrId, status := .locQpOpErr }]

section Report

variable {c : Ctx} {p : Pkt} {w : RecvWqe}

theorem error_run (n : ℕ) (pkt : Option Pkt) (c : Ctx) :
    ∃ c', Loop.run respStep (n + 1) ⟨.error, pkt, c⟩ = some (false, c') ∧
      c'.qp.resp.state = .error ∧ seen Event.report? c' = seen Event.report? c :=
  ⟨_, run_error n pkt c, rxeQpError_state _, rxeQpError_rel (seenRel report_coarse) _⟩

theorem cleanup_run (n : ℕ) (pkt : Option Pkt) (hgo : c.qp.resp.gotoError) :
    ∃ c', Loop.run respStep (n + 3) ⟨.cleanup, pkt, c⟩ = some (false, c') ∧
      c'.qp.resp.state = .error ∧ seen Event.report? c' = seen Event.report? c :=
  ⟨_, run_cleanup_error n pkt hgo, rxeQpError_state _, rxeQpError_rel (seenRel report_coarse) _⟩

theorem acknowledge_malformed (hrc : c.qp.type = .rc)
    (hsyn : c.qp.resp.aethSyndrome = aethNakRemOpErr) :
    (acknowledge c p).qp.resp.gotoError = c.qp.resp.gotoError ∧
    (c.skbRoom → ∃ nak, IsNak p aethNakRemOpErr nak ∧
      seen Event.report? (acknowledge c p) = seen Event.report? c ++ [.answer nak]) ∧
    (¬ c.skbRoom → seen Event.report? (acknowledge c p) = seen Event.report? c) := by
  have hack : acknowledge c p = sendAck c p aethNakRemOpErr p.psn := by
    unfold acknowledge
    rw [if_neg (not_not_intro hrc), if_pos (by rw [hsyn]; decide), hsyn]
  rw [hack]
  rcases sendAck_nak c p aethNakRemOpErr with ⟨hroom, skb, nak, hnak, heq⟩ | ⟨hroom, skb, heq⟩
  · rw [heq]
    exact ⟨rfl, fun _ => ⟨nak, hnak, List.filterMap_append ..⟩, fun hno => absurd hroom hno⟩
  · rw [heq]
    exact ⟨rfl, fun hyes => absurd hyes hroom, fun _ => rfl⟩

theorem respDoComplete_malformed (hw : recvWqe c.qp = some w) (hstate : c.qp.resp.state ≠ .error)
    (hstatus : c.qp.resp.status = .locQpOpErr) :
    (c.cqRoom ∧ ∃ cq, respDoComplete c (some p) =
      (if c.qp.type = .rc then .acknowledge else .cleanup, { retireRecvWqe c with
        cq, out := c.out ++ [.recvCqe { wrId := w.wrId, status := .locQpOpErr } p.se] })) ∨
    (¬ c.cqRoom ∧ ∃ cq, respDoComplete c (some p) =
      (.errCqOverflow, { retireRecvWqe c with cq, out := c.out ++ [.cqErr] })) := by
  have hcqe : makeRecvCqe c.qp w (some p) = { wrId := w.wrId, status := .locQpOpErr } := by
    unfold makeRecvCqe
    rw [hstatus]
  have hafter : ∀ cq out, respAfterCqe { retireRecvWqe c with cq, out } (some p) =
      if c.qp.type = .rc then .acknowledge else .cleanup := by
    intro cq out
    exact (if_neg hstate).trans (if_neg (by simp))
  unfold respDoComplete Ctx.cqPost Ctx.cqRoom
  rw [hw]
  dsimp only
  rw [hcqe]
  -- the event for the CQ says whether there was room
  change ((retireRecvWqe c).cq.head? ≠ some false ∧ _) ∨
      (¬ (retireRecvWqe c).cq.head? ≠ some false ∧ _)
  cases hcq : (retireRecvWqe c).cq with
  | nil => exact Or.inl ⟨by simp, (retireRecvWqe c).cq, Prod.ext (hafter _ _) rfl⟩
  | cons b bs =>
    cases b with
    | true => exact Or.inl ⟨by simp, bs, Prod.ext (hafter _ _) rfl⟩
    | false => exact Or.inr ⟨by simp, bs, rfl⟩

theorem malformed_run (hw : recvWqe c.qp = some w) (hstate : c.qp.resp.state ≠ .error) (p : Pkt) :
    ∃ c', Loop.run respStep 6 ⟨.errMalformedWqe, some p, c⟩ = some (false, c') ∧
      RefusedSend c w p c' := by
  have hfirst : respStep ⟨.errMalformedWqe, some p, c⟩ =
      .inl ⟨.complete, some p, doClassAcError c aethNakRemOpErr .locQpOpErr⟩ := rfl
  rw [Loop.run_succ_inl hfirst, Loop.run_succ_inl (respStep_complete _ _)]
  obtain ⟨hroom, cq, heq⟩ | ⟨hroom, cq, heq⟩ := respDoComplete_malformed (p := p)
    (c := doClassAcError c aethNakRemOpErr .locQpOpErr) hw hstate rfl
  · rw [heq]
    -- the completion is reported before any NAK
    have hposted : ∀ (d : Ctx), d.out = c.out ++ [.recvCqe { wrId := w.wrId, status := .locQpOpErr }
        p.se] → seen Event.report? d = seen Event.report? c ++
          [.cqe { wrId := w.wrId, status := .locQpOpErr }] := by
      intro d hd
      unfold seen
      rw [hd]
      exact List.filterMap_append ..
    split
    · next hrc =>
      obtain ⟨hgo, hnak, hnone⟩ := acknowledge_malformed (p := p)
        (c := { retireRecvWqe (doClassAcError c aethNakRemOpErr .locQpOpErr) with
          cq, out := c.out ++ [.recvCqe { wrId := w.wrId, status := .locQpOpErr } p.se] }) hrc rfl
      obtain ⟨c', hrun, herr, hseen⟩ := cleanup_run 0 (some p) (hgo.trans rfl)
      refine ⟨c', hrun, herr, fun hno => absurd hroom hno, fun _ hskb => ?_, fun _ hno => ?_⟩
      · obtain ⟨nak, hisnak, hsent⟩ := hnak hskb.2
        refine ⟨nak, hisnak, ?_⟩
        rw [hseen, hsent, hposted _ rfl, List.append_assoc]
        rfl
      · rw [hseen, hnone fun hskb => hno ⟨hrc, hskb⟩, hposted _ rfl]
    · next hrc =>
      obtain ⟨c', hrun, herr, hseen⟩ := cleanup_run 1 (some p)
        (c := { retireRecvWqe (doClassAcError c aethNakRemOpErr .locQpOpErr) with
          cq, out := c.out ++ [.recvCqe { wrId := w.wrId, status := .locQpOpErr } p.se] }) rfl
      refine ⟨c', hrun, herr, fun hno => absurd hroom hno, fun _ hskb => absurd hskb.1 hrc,
        fun _ _ => ?_⟩
      rw [hseen, hposted _ rfl]
  · rw [heq, Loop.run_succ_inl (respStep_errCqOverflow _ _)]
    obtain ⟨c', hrun, herr, hseen⟩ := error_run 2 (some p)
      { retireRecvWqe (doClassAcError c aethNakRemOpErr .locQpOpErr) with
        cq, out := c.out ++ [.cqErr] }
    refine ⟨c', hrun, herr, fun _ => ?_, fun hyes => absurd hyes hroom,
      fun hyes => absurd hyes hroom⟩
    rw [hseen]
    exact (List.filterMap_append ..).trans (List.append_nil _)

end Report

/-! ### Runs -/

/-- The message of the packet at hand up to it. -/
def Ctx.messageWith (c : Ctx) (p : Pkt) : List Pkt :=
  if p.continuesSend then message (execPkts c.out) ++ [p] else [p]

theorem messageWith_bytes (c : Ctx) (p : Pkt) :
    msgBytes c.qp.type (c.messageWith p) =
      (if p.continuesSend then msgBytes c.qp.type (message (execPkts c.out)) else 0) +
        p.stored c.qp.type := by
  unfold Ctx.messageWith
  split
  · exact msgBytes_concat ..
  · rw [msgBytes_single, Nat.zero_add]

open Trace in
/-- In every run, a packet of a SEND is stored as long as its message up to it fits the
receive WQE.  The first one that does not fit takes the path for malformed WQEs to the error
state, for every type of QP. -/
theorem overlong_send_malformed (c₀ c : Ctx) (p : Pkt) (w : RecvWqe) (h₀ : FreshResponder c₀)
    (hreach : Reach respPass MessageOk (.idle c₀) (.busy ⟨.execute, some p, c⟩))
    (hsend : p.mask.send) (hw : recvWqe c.qp = some w) (hstate : c.qp.resp.state ≠ .error) :
    (Usable c.dev c.qp.pd w.dma.sge → w.dma.length < 2 ^ 31 →
      msgBytes c.qp.type (c.messageWith p) ≤ w.dma.length →
        (execute c p).1 ∈ [RespState.complete, .acknowledge, .cleanup] ∧
          seen Event.report? (execute c p).2 = seen Event.report? c ++ [.executed p]) ∧
    (w.dma.length < msgBytes c.qp.type (c.messageWith p) →
      (execute c p).1 = .errMalformedWqe ∧
        ∃ c', Loop.run respStep 7 ⟨.execute, some p, c⟩ = some (false, c') ∧
          RefusedSend c w p c') := by
  have hinv : RecvInv .execute (some p) c.uc := receives_reach h₀ hreach
  -- the WQE in use holds what the message has brought so far
  have hload : Loading c.uc p := (hinv.now.2 p rfl).2
  obtain ⟨⟨dma, hrecv⟩, hlong, hroom⟩ := executeData_store hsend hw (hload hsend w hw)
  obtain ⟨byte, rq, srqWqe, va, resid, orig, hframe⟩ := executeData_frame c p
  rw [messageWith_bytes]
  obtain ⟨⟨err, c₁⟩, hdata⟩ : ∃ r, executeData c p = r := ⟨_, rfl⟩
  have hexec := execute_send hsend hdata
  rw [hdata] at hrecv hlong hroom hframe
  constructor
  · intro huse hlt hfits
    cases hroom huse hlt hfits
    rw [hexec]
    constructor
    · show (executeDone c₁ p).1 ∈ _
      unfold executeDone
      dsimp only
      split
      · exact .head _
      · split
        · exact .tail _ (.head _)
        · exact .tail _ (.tail _ (.head _))
    · show seen Event.report? (executeDone c₁ p).2 = _
      rw [show c₁ = _ from hframe]
      exact List.filterMap_append ..
  · intro hbytes
    cases hlong hbytes
    have hstep : respStep ⟨.execute, some p, c⟩ = .inl ⟨.errMalformedWqe, some p, c₁⟩ := by
      show RespCfg.goto _ (execute c p) = _
      rw [hexec]
      rfl
    refine ⟨congrArg Prod.fst hexec, ?_⟩
    rw [Loop.run_succ_inl hstep]
    obtain ⟨c', hrun, href⟩ := malformed_run hrecv
      (show c₁.qp.resp.state ≠ .error by rw [show c₁ = _ from hframe]; exact hstate) p
    refine ⟨c', hrun, ?_⟩
    rw [show c₁ = _ from hframe] at href
    exact ⟨href.error, href.full, href.nak, href.noNak⟩

/-- A QP with one receive of three bytes posted. -/
def tinyRecvQp (type : QpType) : Ctx where
  qp :=
    { type, sq := ⟨[], []⟩, resp := { state := .ready }
      rq := ⟨[initRecvWqe { wrId := 9, sgList := [⟨64, 3, 256⟩] }], []⟩ }
  dev := { mem := fun i => if i = 1 then some localRegion else none }

theorem tinyRecvQp_fresh (type : QpType) : FreshResponder (tinyRecvQp type) where
  noOpcode := rfl
  noWqe := rfl
  noRes := rfl
  noPkts := rfl
  rq _ hw := ⟨_, List.mem_singleton.1 hw⟩
  srq := nofun

def sendHead : Pkt := { opcode := .rcSendFirst, payload := [1, 2] }

def sendTail : Pkt := { opcode := .rcSendLast, psn := 1, payload := [3, 4] }

/-- The two packets of a SEND of four bytes, up to the execution of the second. -/
def tinyRecvActs : List RespAct :=
  [.recv sendHead, .recv sendTail, .call] ++ List.replicate 11 .pass ++
    .call :: List.replicate 7 .pass

def tinyRecvRun : Option RespSys :=
  tinyRecvActs.foldlM (fun sys a => if messageCheck sys a then respPass sys a else none)
    (.idle (tinyRecvQp .rc))

/-- The packet about to be executed, the length of the receive WQE, the state of the QP, and the
bytes of the message with the packet. -/
def RespSys.executing : RespSys → Option (Pkt × Option ℕ × QpState × ℕ)
  | .busy ⟨.execute, some p, c⟩ => some (p, (recvWqe c.qp).map (·.dma.length), c.qp.resp.state,
      msgBytes c.qp.type (c.messageWith p))
  | _ => none

open Trace in
/-- The second packet does not fit: the call ends in the error state. -/
theorem overlong_send_malformed_last :
    ∃ c c' w, tinyRecvRun = some (.busy ⟨.execute, some sendTail, c⟩) ∧
      Loop.run respStep 7 ⟨.execute, some sendTail, c⟩ = some (false, c') ∧
      RefusedSend c w sendTail c' := by
  have hrun : tinyRecvRun.bind RespSys.executing = some (sendTail, some 3, .ready, 4) := by decide
  obtain ⟨sys, hsys, hat⟩ := Option.bind_eq_some_iff.1 hrun
  unfold RespSys.executing at hat
  split at hat
  · next p c =>
    obtain ⟨hp, hrest⟩ := Prod.mk.inj (Option.some.inj hat)
    obtain ⟨hwqe, hrest⟩ := Prod.mk.inj hrest
    obtain ⟨hstate, hbytes⟩ := Prod.mk.inj hrest
    obtain ⟨w, hw, hlen⟩ := Option.map_eq_some_iff.1 hwqe
    cases hp
    obtain ⟨-, c', hcall, href⟩ := (overlong_send_malformed (tinyRecvQp .rc) c sendTail w
      (tinyRecvQp_fresh .rc) (Reach.start.foldlM_checked messageOk_of_check _ hsys) rfl hw
      (by rw [hstate]; decide)).2 (by rw [hlen, hbytes]; decide)
    exact ⟨c, c', w, hsys, hcall, href⟩
  · cases hat

/-- A call for a SEND of four bytes: the state of the QP, the completions and the syndromes of
the answers. -/
def overlongCall (type : QpType) (opcode : Opcode) : Option (QpState × List WcStatus × List ℕ) :=
  (rxeResponder 20 (rxeRespQueuePkt (tinyRecvQp type) { opcode, payload := [1, 2, 3, 4] })).map
    fun r =>
      (r.2.qp.resp.state, (recvCqes r.2.out).map (·.status), (responses r.2.out).map (·.aeth.syn))

/-- On RC the answer is no NAK for an invalid request and the completion no
IB_WC_REM_INV_REQ_ERR; on UC and UD the message is not dropped. -/
theorem overlong_send_no_length_error :
    overlongCall .rc .rcSendOnly = some (.error, [.locQpOpErr], [aethNakRemOpErr]) ∧
    overlongCall .uc .ucSendOnly = some (.error, [.locQpOpErr], []) ∧
    overlongCall .ud .udSendOnly = some (.error, [.locQpOpErr], []) := by decide

end Rxe
