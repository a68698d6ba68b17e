/-
The receive queue of a QP without an SRQ over whole runs.

A run interleaves the passes of `rxe_responder` with everything else that happens to the
QP: arriving packets, posted receives, the requester, the completer, modify verbs other than
a reset, and the move to the error state.  The ghost value lists the receives posted so far.

* `recv_order` — the receive completions name the receive WQEs in posting order, once each;
  a WQE is in the queue until its completion is posted; and `resp.wqe` is NULL or the head
  of the receive queue.
-/
import Rxe.SendOrder

namespace Rxe

variable {posted : List RecvWr} {k : RespSys × List RecvWr} {c : Ctx}

/-- What can happen to a QP. -/
inductive QpAct
  | resp (a : RespAct)
  | send (a : SendAct)

/-- The receives of a list that `rxe_post_recv` took. -/
def takenRecvs (c c' : Ctx) (wrs : List RecvWr) : List RecvWr :=
  wrs.take (c'.qp.rq.live.length - c.qp.rq.live.length)

/-- A step of a run, with the receives posted so far. -/
def recvStep (k : RespSys × List RecvWr) : QpAct → Option (RespSys × List RecvWr)
  | .resp a =>
    (respPass k.1 a).map fun sys =>
      (sys, k.2 ++ match a with
        | .postRecv wrs => takenRecvs k.1.ctx sys.ctx wrs
        | _ => [])
  | .send a => (sendAct k.1.ctx a).map fun c => (k.1.map fun _ => c, k.2)

/-- The QP is not reset, and its CQs do not overflow.  Only a reset runs the responder in the
reset state. -/
def RecvOk (k : RespSys × List RecvWr) : QpAct → Prop
  | .resp .call => k.1.ctx.qp.resp.state ≠ .reset
  | .resp (.env _ _ cq) => ∀ b ∈ cq, b = true
  | .resp _ => True
  | .send a => a.mild

/-- The receive completions among some events. -/
def recvCqes (es : List Event) : List Wc :=
  es.filterMap fun
    | .recvCqe wc _ => some wc
    | _ => none

theorem recvCqes_append (es es' : List Event) :
    recvCqes (es ++ es') = recvCqes es ++ recvCqes es' :=
  List.filterMap_append ..

theorem recvCqes_silent {es : List Event} (h : Silent es) : recvCqes es = [] := by
  refine List.filterMap_eq_nil_iff.2 fun e he => ?_
  have hs := h e he
  cases e <;> first | rfl | cases hs

theorem recvCqes_said (c : Ctx) {es : List Event} (h : Silent es) :
    recvCqes (c.out ++ es) = recvCqes c.out := by
  rw [recvCqes_append, recvCqes_silent h, List.append_nil]

theorem recvCqes_exec (c : Ctx) (p : Pkt) (orig : ℕ) :
    recvCqes (c.out ++ [.exec p orig]) = recvCqes c.out := by
  rw [recvCqes_append]
  exact List.append_nil _

theorem execute_recvCqes (c : Ctx) (p : Pkt) :
    recvCqes (execute c p).2.out = recvCqes c.out := by
  rcases execute_cases c p with ⟨-, heq⟩ | ⟨_, _, _, _, _, _, d, rfl, ⟨err, -, heq⟩ | heq⟩ <;>
    rw [heq]
  · exact recvCqes_exec c p _
  · exact recvCqes_exec c p _

/-- Only `do_complete` posts a receive completion. -/
theorem respStep_recvCqes {s : RespCfg} (h : s.state ≠ .complete) :
    recvCqes (RespSys.ofPass (respStep s)).ctx.out = recvCqes s.c.out := by
  obtain ⟨pkt, hchange⟩ := respStep_ctx s
  generalize (RespSys.ofPass (respStep s)).ctx = c at hchange
  cases hchange with
  | getReq _ =>
    obtain ⟨pkts, hc⟩ := getReq_frame s.c s.pkt
    rw [hc]
  | execute _ => exact execute_recvCqes s.c _
  | complete hstate => exact absurd hstate h
  | cleanup _ | reset _ => rfl
  | error _ =>
    obtain ⟨req, sq, respPkts, cq, es, hes, hc⟩ :=
      rxeQpError_frame { s.c with qp.resp.gotoError := false }
    rw [hc]
    exact recvCqes_said s.c hes
  | work _ _ _ _ hwork =>
    obtain ⟨rq, srq, resp, skb, es, rfl, hes, -⟩ := hwork
    exact recvCqes_said s.c hes

/-- What identifies a receive WQE: the part that does not change while it is filled. -/
def RecvWqe.ident (w : RecvWqe) : ℕ × DmaInfo := (w.wrId, w.dma.start)

/-- What the WQE of a receive is identified by. -/
def RecvWr.ident (wr : RecvWr) : ℕ × DmaInfo := (initRecvWqe wr).ident

/-- A QP without an SRQ to which nothing has been posted. -/
structure FreshRecv (c : Ctx) : Prop where
  srq : c.qp.srq = none
  empty : c.qp.rq.live = []
  wqe : c.qp.resp.wqe = none
  out : recvCqes c.out = []
  room : c.roomy
  valid : c.qp.valid
  sq : c.qp.sq.live = []

/-- The WQEs in `gone` have been completed, the others are queued. -/
structure Filed (posted : List RecvWr) (c : Ctx) : Prop where
  split : ∃ gone, posted.map RecvWr.ident = gone ++ c.qp.rq.live.map RecvWqe.ident ∧
    (recvCqes c.out).map Wc.wrId = gone.map Prod.fst
  head : ∀ r, c.qp.resp.wqe = some r → r = .rq 0 ∧ c.qp.rq.live ≠ []
  srq : c.qp.srq = none
  room : c.roomy
  use : c.inUse

section Step

variable {posted : List RecvWr} {c c' : Ctx}

theorem Filed.keep (h : Filed posted c)
    (hlive : c'.qp.rq.live.map RecvWqe.ident = c.qp.rq.live.map RecvWqe.ident)
    (hcqes : recvCqes c'.out = recvCqes c.out) (hwqe : c'.qp.resp.wqe = c.qp.resp.wqe)
    (hsrq : c'.qp.srq = c.qp.srq) (hroom : c'.roomy) (huse : c'.inUse) : Filed posted c' where
  split := by
    rw [hlive, hcqes]
    exact h.split
  head r hr := by
    obtain ⟨hzero, hne⟩ := h.head r (hwqe ▸ hr)
    refine ⟨hzero, fun hnil => hne ?_⟩
    rw [hnil] at hlive
    exact List.map_eq_nil_iff.1 hlive.symm
  srq := hsrq.trans h.srq
  room := hroom
  use := huse

theorem Filed.side (h : Filed posted c) (hside : SendSide c c') : Filed posted c' := by
  obtain ⟨gone, es, hout, hes, -⟩ := hside.order
  refine h.keep (by rw [hside.rq]) ?_ hside.wqe hside.srq (hside.roomy h.room) (hside.inUse h.use)
  rw [hout, recvCqes_said c hes]

theorem Filed.recvWqe (h : Filed posted c) {w : RecvWqe} (hw : recvWqe c.qp = some w) :
    c.qp.resp.wqe = some (.rq 0) ∧ ∃ rest, c.qp.rq.live = w :: rest := by
  unfold Rxe.recvWqe at hw
  split at hw
  · cases hw
  · next i hi =>
    obtain ⟨hzero, hne⟩ := h.head _ hi
    cases hzero
    refine ⟨hi, ?_⟩
    obtain ⟨v, rest, hlive⟩ := List.exists_cons_of_ne_nil hne
    rw [RingBuf.get?_of_lt (by simp [hlive]), hlive] at hw
    cases hw
    exact ⟨rest, hlive⟩
  · next hi => exact nomatch (h.head _ hi).1

theorem Filed.setRecvWqe (h : Filed posted c) {f : RecvWqe → RecvWqe}
    (hf : ∀ w, Rxe.recvWqe c.qp = some w → (f w).ident = w.ident) :
    Filed posted (setRecvWqe c f) := by
  unfold Rxe.setRecvWqe
  split
  · exact h
  · next i hi =>
    obtain ⟨hzero, hne⟩ := h.head _ hi
    cases hzero
    obtain ⟨v, rest, hlive⟩ := List.exists_cons_of_ne_nil hne
    have hget : c.qp.rq.get? 0 = some v := by
      rw [RingBuf.get?_of_lt (by simp [hlive]), hlive]
      rfl
    refine h.keep (RingBuf.modify_map_live_of_get? hget (hf v ?_)) rfl rfl rfl h.room h.use
    unfold Rxe.recvWqe
    rw [hi]
    exact hget
  · next hi => exact nomatch (h.head _ hi).1

theorem copyDataWith_start {σ : Type} (act : σ → ℕ → ℕ → ℕ → Except Errno σ) (dma : DmaInfo)
    (length : ℕ) (s : σ) : (copyDataWith act dma length s).1.start = dma.start := by
  unfold copyDataWith
  split
  · rfl
  · split
    · rfl
    · split <;> rfl

theorem copyDataIn_start (dev : Dev) (pd : ℕ) (access : Option Access) (dma : DmaInfo)
    (data : List UInt8) : (copyDataIn dev pd access dma data).1.start = dma.start := by
  have hstart := copyDataWith_start (scatterPiece pd access) dma data.length (dev, data)
  unfold copyDataIn
  generalize copyDataWith (scatterPiece pd access) dma data.length (dev, data) = r at hstart
  exact hstart

theorem sendDataIn_filed (h : Filed posted c) (data : List UInt8) :
    Filed posted (sendDataIn c data).2 := by
  unfold sendDataIn
  split
  · exact h
  · next w hw =>
    have hstart := copyDataIn_start c.dev c.qp.pd (some .localWrite) w.dma data
    obtain ⟨byte, hdev⟩ := copyDataIn_frame c.dev c.qp.pd (some .localWrite) w.dma data
    generalize copyDataIn c.dev c.qp.pd (some .localWrite) w.dma data = r at hstart hdev
    obtain ⟨dma, dev, res⟩ := r
    have hcopy : Filed posted (setRecvWqe { c with dev } fun w => { w with dma }) := by
      refine Filed.setRecvWqe (c := { c with dev }) (h.keep rfl rfl rfl rfl h.room h.use) ?_
      intro v hv
      obtain rfl : w = v := Option.some_inj.1 (hw.symm.trans hv)
      unfold RecvWqe.ident
      rw [← hstart]
    dsimp only
    split <;> exact hcopy

theorem executeData_filed (h : Filed posted c) (p : Pkt) : Filed posted (executeData c p).2 := by
  refine executeData_inv (fun _ data h => sendDataIn_filed h data) (fun _ d h => ?_)
    (fun d h => ?_) h
  · obtain ⟨byte, va, resid, hd⟩ := writeDataIn_frame d p
    rw [hd]
    exact h.keep rfl rfl rfl rfl h.room h.use
  · obtain ⟨byte, orig, hd⟩ := processAtomic_frame d p
    rw [hd]
    exact h.keep rfl rfl rfl rfl h.room h.use

theorem execute_filed (h : Filed posted c) (p : Pkt) : Filed posted (execute c p).2 := by
  have hdata := executeData_filed h p
  unfold execute
  split
  · refine h.keep rfl ?_ rfl rfl h.room h.use
    rw [Ctx.emit, recvCqes_append]
    exact List.append_nil _
  · split
    · next heq =>
      rw [heq] at hdata
      exact hdata
    · next c₁ heq =>
      rw [heq] at hdata
      unfold executeDone
      refine hdata.keep rfl ?_ rfl rfl hdata.room hdata.use
      dsimp only
      rw [Ctx.emit, recvCqes_append]
      exact List.append_nil _

theorem cqPost_roomy (h : c.roomy) (e : Event) :
    ∃ cq, c.cqPost e = (true, { c with cq }.emit e) ∧ cq <:+ c.cq := by
  unfold Ctx.cqPost
  split
  · exact ⟨c.cq, rfl, List.suffix_rfl⟩
  · next bs hcq => exact ⟨bs, rfl, hcq ▸ List.suffix_cons true bs⟩
  · next bs hcq =>
    have hfull := h false (by rw [hcq]; exact List.mem_cons_self)
    cases hfull

theorem respDoComplete_filed (h : Filed posted c) (pkt : Option Pkt) :
    Filed posted (respDoComplete c pkt).2 := by
  unfold respDoComplete
  split
  · exact h
  · next w hw =>
    obtain ⟨-, rest, hlive⟩ := h.recvWqe hw
    -- with room in the CQ the completion is posted
    obtain ⟨cq, hpost, hsuffix⟩ := cqPost_roomy (c := retireRecvWqe c) h.room
      (.recvCqe (makeRecvCqe c.qp w pkt) (recvSolicited pkt))
    rw [hpost]
    obtain ⟨gone, hsplit, hcqes⟩ := h.split
    have hrq : (retireRecvWqe c).qp.rq.live = rest := by
      show (if c.qp.srq.isNone then c.qp.rq.pop else c.qp.rq).live = rest
      rw [h.srq, RingBuf.pop_live hlive]
      rfl
    refine ⟨⟨gone ++ [w.ident], ?_, ?_⟩, fun r hr => (nomatch hr), h.srq,
      fun b hb => h.room b (hsuffix.subset hb), h.use⟩
    · show _ = (gone ++ [w.ident]) ++ (retireRecvWqe c).qp.rq.live.map RecvWqe.ident
      rw [hrq, hsplit, hlive, List.append_assoc]
      rfl
    · show (recvCqes (c.out ++ [_])).map Wc.wrId = _
      rw [recvCqes_append, List.map_append, hcqes, List.map_append]
      refine congrArg (gone.map Prod.fst ++ ·) ?_
      show [(makeRecvCqe c.qp w pkt).wrId] = [w.wrId]
      unfold makeRecvCqe
      split <;> rfl

theorem takeRqHead_filed (h : Filed posted c) : Filed posted (takeRqHead c) where
  split := h.split
  head r hr := by
    dsimp only [takeRqHead] at hr ⊢
    split at hr
    · cases hr
    · next hne =>
      cases hr
      exact ⟨rfl, fun hnil => hne (by rw [hnil]; rfl)⟩
  srq := h.srq
  room := h.room
  use := h.use

theorem checkResource_filed (h : Filed posted c) (pkt : Option Pkt) :
    Filed posted (checkResource c pkt).2 := by
  have hflush : Filed posted (takeFlushWqe c) := by
    unfold takeFlushWqe
    split
    · exact takeRqHead_filed h
    · exact h
  unfold checkResource
  split
  · dsimp only
    split
    · exact hflush.keep rfl rfl rfl rfl hflush.room hflush.use
    · exact hflush
  · split
    · exact h
    · split
      · exact h
      · split
        · rw [h.srq]
          exact takeRqHead_filed h
        · exact h

theorem readReply_filed (h : Filed posted c) (p : Pkt) : Filed posted (readReply c p).2 := by
  obtain ⟨-, _, _, _, _, _, _, _, es, ⟨hes, -⟩, hc⟩ := readReply_frame c p
  rw [hc]
  exact h.keep rfl (recvCqes_said c hes) rfl rfl h.room h.use

theorem duplicateRequest_filed (h : Filed posted c) (p : Pkt) :
    Filed posted (duplicateRequest c p).2 := by
  by_cases hread : p.mask.read
  · rw [duplicateRequest_of_read c hread]
    rcases duplicateRead_cases c p with heq | ⟨i, res, -, -, -, heq⟩
    · rw [heq]
      exact h
    · rw [heq]
      exact h.keep rfl rfl rfl rfl h.room h.use
  · rcases (duplicateRequest_frame c p (by simpa using hread)).2 with
      ⟨skb, es, hes, hc⟩ | ⟨skb, es, i, ack, hes, hc⟩
    · rw [hc]
      exact h.keep rfl (recvCqes_said c hes) rfl rfl h.room h.use
    · rw [hc]
      exact h.keep rfl (recvCqes_said c hes) rfl rfl h.room h.use

theorem doClassD1eError_filed (h : Filed posted c) : Filed posted (doClassD1eError c).2 := by
  unfold doClassD1eError
  rw [if_neg (by rw [h.srq]; simp)]
  dsimp only
  split
  · have hset := h.setRecvWqe (f := fun w =>
      { w with dma := { w.dma with resid := w.dma.length, curSge := 0, sgeOffset := 0 } })
      fun _ _ => rfl
    exact hset.keep rfl rfl rfl rfl hset.room hset.use
  · exact h.keep rfl rfl rfl rfl h.room h.use

theorem recvRule : PassRule (fun (g : List RecvWr) _ => g)
    (fun g state _ c => Filed g c ∧ state ≠ .reset) (fun g _ _ c => Filed g c) Filed where
  getReq _ pkt c h := by
    obtain ⟨pkts, hc⟩ := getReq_frame c pkt
    rw [hc]
    exact h.1.keep rfl rfl rfl rfl h.1.room h.1.use
  chkPsn _ p c h := by
    obtain ⟨nak, drop, hc⟩ := respCheckPsn_frame c p
    rw [hc]
    exact h.1.keep rfl rfl rfl rfl h.1.room h.1.use
  chkOpSeq _ p c h := by
    obtain ⟨drop, hc⟩ := checkOpSeq_frame c p
    rw [hc]
    exact h.1.keep rfl rfl rfl rfl h.1.room h.1.use
  chkOpValid _ p c h := by
    obtain ⟨drop, hc⟩ := checkOpValid_frame c p
    rw [hc]
    exact h.1.keep rfl rfl rfl rfl h.1.room h.1.use
  chkResource _ pkt _ h := checkResource_filed h.1 pkt
  chkLength _ _ _ h := h.1
  chkRkey _ p c h := by
    obtain ⟨va, rkey, resid, mr, hc⟩ := checkRkey_frame c p
    rw [hc]
    exact h.1.keep rfl rfl rfl rfl h.1.room h.1.use
  execute _ p _ h := execute_filed h.1 p
  complete _ pkt _ h := respDoComplete_filed h.1 pkt
  readReply _ p c h := readReply_filed h.1 p
  acknowledge _ p c h := by
    rcases acknowledge_frame c p with ⟨skb, es, hes, hc⟩ | ⟨skb, es, ack, hes, hc⟩
    · rw [hc]
      exact h.1.keep rfl (recvCqes_said c hes) rfl rfl h.1.room h.1.use
    · rw [hc]
      exact h.1.keep rfl (recvCqes_said c hes) rfl rfl h.1.room h.1.use
  cleanup _ _ _ h := h.1.keep rfl rfl rfl rfl h.1.room h.1.use
  duplicateRequest _ p c h := duplicateRequest_filed h.1 p
  errPsn _ p c h := by
    obtain ⟨skb, es, hes, hc⟩ := sendAck_frame c p aethNakPsnSeqError c.qp.resp.psn
    rw [hc]
    exact h.1.keep rfl (recvCqes_said c hes) rfl rfl h.1.room h.1.use
  errAc _ _ _ _ _ _ _ h := h.1.keep rfl rfl rfl rfl h.1.room h.1.use
  errD1e _ _ c h := doClassD1eError_filed h.1
  errRnr _ p c h := by
    obtain ⟨skb, es, drop, hes, hc⟩ := respErrRnr_frame c p
    rw [hc]
    exact h.1.keep rfl (recvCqes_said c hes) rfl rfl h.1.room h.1.use
  errRkey _ _ c h := by
    obtain ⟨syn, status, err, drop, hc⟩ := respErrRkey_frame c
    rw [hc]
    exact h.1.keep rfl rfl rfl rfl h.1.room h.1.use
  errLength _ _ c h := by
    obtain ⟨syn, status, err, drop, hc⟩ := respErrLength_frame c
    rw [hc]
    exact h.1.keep rfl rfl rfl rfl h.1.room h.1.use
  toError _ _ _ _ _ h := h.1
  leave _ _ _ _ _ h := h.1
  error _ _ c h := by
    have hclear : Filed _ { c with qp.resp.gotoError := false } :=
      h.1.keep rfl rfl rfl rfl h.1.room h.1.use
    exact hclear.side (rxeQpError_rel sideRel.coarse _)
  reset _ _ _ h := absurd rfl h.2

end Step

/-! ### Posting -/

theorem postOneRecv_some {rq rq' : RingBuf RecvWqe} {maxSge : ℕ} {wr : RecvWr}
    (h : postOneRecv rq maxSge wr = some rq') : rq'.live = rq.live ++ [initRecvWqe wr] := by
  obtain ⟨hok, ⟨⟩⟩ := Option.ite_none_left_eq_some.1 h
  rw [not_or] at hok
  obtain ⟨slot, cells, hfree⟩ : ∃ slot cells, rq.free = slot :: cells := by
    refine List.exists_cons_of_ne_nil fun hnil => hok.1 ?_
    rw [RingBuf.full, hnil]
    rfl
  rw [RingBuf.push_live _ hfree]

theorem postRecvLoop_live (maxSge : ℕ) (wrs : List RecvWr) :
    ∀ rq, ∃ n ≤ wrs.length,
      (postRecvLoop maxSge rq wrs).2.live = rq.live ++ (wrs.take n).map initRecvWqe := by
  induction wrs with
  | nil => exact fun rq => ⟨0, le_rfl, (List.append_nil _).symm⟩
  | cons wr wrs ih =>
    intro rq
    unfold postRecvLoop
    split
    · exact ⟨0, Nat.zero_le _, (List.append_nil _).symm⟩
    · next rq₁ hpost =>
      obtain ⟨n, hn, hlive⟩ := ih rq₁
      refine ⟨n + 1, Nat.succ_le_succ hn, ?_⟩
      rw [hlive, postOneRecv_some hpost, List.append_assoc]
      rfl

theorem rxePostRecv_live (c : Ctx) (wrs : List RecvWr) :
    ∃ rq, (rxePostRecv c wrs).2 = { c with qp.rq := rq } ∧
      rq.live = c.qp.rq.live ++ (takenRecvs c (rxePostRecv c wrs).2 wrs).map initRecvWqe := by
  unfold rxePostRecv
  split
  · refine ⟨c.qp.rq, rfl, ?_⟩
    rw [takenRecvs, Nat.sub_self]
    exact (List.append_nil _).symm
  · obtain ⟨n, hn, hlive⟩ := postRecvLoop_live c.qp.rqMaxSge wrs c.qp.rq
    generalize postRecvLoop c.qp.rqMaxSge c.qp.rq wrs = r at hlive
    obtain ⟨ok, rq⟩ := r
    refine ⟨rq, rfl, ?_⟩
    dsimp only [takenRecvs] at hlive ⊢
    rw [hlive, List.length_append, List.length_map, List.length_take_of_le hn,
      Nat.add_sub_cancel_left]

theorem Filed.postRecv (h : Filed posted c) (wrs : List RecvWr) :
    Filed (posted ++ takenRecvs c (rxePostRecv c wrs).2 wrs) (rxePostRecv c wrs).2 := by
  obtain ⟨rq, hc, hlive⟩ := rxePostRecv_live c wrs
  generalize takenRecvs c (rxePostRecv c wrs).2 wrs = new at hlive
  rw [hc]
  obtain ⟨gone, hsplit, hcqes⟩ := h.split
  refine ⟨⟨gone, ?_, hcqes⟩, fun r hr => ?_, h.srq, h.room, h.use⟩
  · dsimp only
    rw [hlive, List.map_append, List.map_append, hsplit, List.append_assoc, List.map_map]
    rfl
  · obtain ⟨hzero, hne⟩ := h.head r hr
    refine ⟨hzero, fun hnil => hne ?_⟩
    dsimp only at hnil
    rw [hlive] at hnil
    exact (List.append_eq_nil_iff.1 hnil).1

theorem Filed.postSend (h : Filed posted c) (wrs : List SendWr) :
    Filed posted (rxePostSend c wrs).2 := by
  obtain ⟨n, -, sq, es, hes, hc, -, hreset⟩ := rxePostSend_frame c wrs
  have hsilent : Silent es := fun e he => by rw [hes e he]; rfl
  rw [hc]
  refine h.keep rfl (recvCqes_said c hsilent) rfl rfl h.room ⟨h.use.1, fun hr => ?_⟩
  show sq.live = []
  rw [hreset hr]
  exact h.use.2 hr

/-! ### Runs -/

/-- What holds of the system: the correspondence, and the responder is not in the pass that
empties its queue. -/
def FiledSys (k : RespSys × List RecvWr) : Prop :=
  k.1.Holds (fun state _ c => Filed k.2 c ∧ state ≠ .reset) (Filed k.2)

theorem FiledSys.filed (h : FiledSys k) : Filed k.2 k.1.ctx := by
  obtain ⟨sys, posted⟩ := k
  cases sys with
  | idle c => exact h
  | busy s => exact h.1

theorem FiledSys.map {f : Ctx → Ctx}
    (h : FiledSys k) (hf : Filed posted (f k.1.ctx)) : FiledSys (k.1.map f, posted) := by
  obtain ⟨sys, posted₀⟩ := k
  cases sys with
  | idle c => exact hf
  | busy s => exact ⟨hf, h.2⟩

theorem FiledSys.pass {s : RespCfg} (h : FiledSys (.busy s, posted)) :
    FiledSys (.ofPass (respStep s), posted) := by
  have hrule := recvRule.step (g := posted) (s := s) h
  have hnext := respStep_next.step (g := s.state) (s := s) trivial
  unfold FiledSys
  generalize RespSys.ofPass (respStep s) = sys at hrule hnext
  cases sys with
  | idle c => exact hrule
  | busy s' => exact ⟨hrule, hnext.1⟩

theorem FiledSys.resp {k' : RespSys × List RecvWr} {a : RespAct} (h : FiledSys k)
    (hok : RecvOk k (.resp a)) (hstep : recvStep k (.resp a) = some k') : FiledSys k' := by
  obtain ⟨sys, posted⟩ := k
  obtain ⟨sys', hpass, rfl⟩ := Option.map_eq_some_iff.1 hstep
  have hfiled := h.filed
  -- what changes the context while the responder stands still
  have hchange : ∀ f : Ctx → Ctx, a.change = some f → (∀ wrs, a ≠ .postRecv wrs) →
      Filed posted (f sys.ctx) := by
    intro f hf hpost
    cases a with
    | call | pass => cases hf
    | recv p =>
      cases hf
      exact hfiled.keep rfl (recvCqes_said _ (silent_one rfl)) rfl rfl hfiled.room hfiled.use
    | postRecv wrs => exact absurd rfl (hpost wrs)
    | error =>
      cases hf
      exact hfiled.side (rxeQpError_rel sideRel.coarse _)
    | env dev skb cq =>
      cases hf
      exact hfiled.keep rfl rfl rfl rfl hok hfiled.use
    | shareSrq srq =>
      cases hf
      refine hfiled.keep rfl rfl rfl ?_ hfiled.room hfiled.use
      dsimp only
      rw [hfiled.srq]
      rfl
  cases a with
  | call =>
    cases sys with
    | busy s => cases hpass
    | idle c =>
      cases hpass
      dsimp only
      rw [List.append_nil]
      unfold respEnter
      dsimp only
      split
      · exact hfiled.keep rfl rfl rfl rfl hfiled.room hfiled.use
      · rw [if_neg (show ¬ c.qp.resp.state = .reset from hok)]
        exact ⟨hfiled.keep rfl rfl rfl rfl hfiled.room hfiled.use, by simp⟩
  | pass =>
    cases sys with
    | idle c => cases hpass
    | busy s =>
      cases hpass
      dsimp only
      rw [List.append_nil]
      exact h.pass
  | postRecv wrs =>
    have hpost := hfiled.postRecv wrs
    cases sys with
    | idle c =>
      cases hpass
      exact hpost
    | busy s =>
      cases hpass
      exact ⟨hpost, h.2⟩
  | recv | error | env | shareSrq =>
    have hf := hchange _ rfl nofun
    dsimp only
    rw [List.append_nil]
    cases sys <;> cases hpass <;> exact h.map hf

theorem FiledSys.send {k' : RespSys × List RecvWr} {a : SendAct} (h : FiledSys k)
    (hmild : a.mild) (hstep : recvStep k (.send a) = some k') : FiledSys k' := by
  obtain ⟨c', hact, rfl⟩ := Option.map_eq_some_iff.1 hstep
  have hfiled := h.filed
  refine h.map ?_
  cases a with
  | post wrs =>
    cases hact
    exact hfiled.postSend wrs
  | env dev skb cq =>
    cases hact
    exact hfiled.keep rfl rfl rfl rfl hmild hfiled.use
  | requester | completer | recv | timer | error | modify =>
    exact hfiled.side (sendAct_side hfiled.use hmild nofun nofun hact)

theorem FreshRecv.filed (h : FreshRecv c) : Filed [] c where
  split := ⟨[], by rw [h.empty]; rfl, by rw [h.out]; rfl⟩
  head r hr := by
    rw [h.wqe] at hr
    cases hr
  srq := h.srq
  room := h.room
  use := ⟨h.valid, fun _ => h.sq⟩

open Trace in
/-- In every state of a run, the receives posted so far are those whose completion has been
posted followed by those that are queued; the completions name the former in posting order,
one for each.  A receive WQE in use is the head of the receive queue. -/
theorem recv_order (c₀ : Ctx) (k : RespSys × List RecvWr) (h₀ : FreshRecv c₀)
    (hreach : Reach recvStep RecvOk (.idle c₀, []) k) :
    (∃ gone, k.2.map RecvWr.ident = gone ++ k.1.ctx.qp.rq.live.map RecvWqe.ident ∧
      (recvCqes k.1.ctx.out).map Wc.wrId = gone.map Prod.fst) ∧
      ∀ r, k.1.ctx.qp.resp.wqe = some r → r = .rq 0 ∧ k.1.ctx.qp.rq.live ≠ [] := by
  have hinv : FiledSys k := by
    refine Reach.inv (I := FiledSys) (show FiledSys (.idle c₀, []) from h₀.filed) ?_ hreach
    intro k a k' h hok hstep
    cases a with
    | resp a => exact h.resp hok hstep
    | send a => exact h.send hok hstep
  exact ⟨hinv.filed.split, hinv.filed.head⟩

/-- An RC QP that is ready to receive. -/
def recvQp : Ctx :=
  { qp := { type := .rc, sq := ⟨[], []⟩, rq := ⟨[], List.replicate 4 {}⟩,
            attr := { qpState := .rtr }, resp := { state := .ready } } }

/-- Two receives are posted and two SENDs arrive; the responder is called for each of them. -/
def recvActs : List QpAct :=
  [.resp (.postRecv [{ wrId := 9 }, { wrId := 4 }]), .resp (.recv { opcode := .rcSendOnly }),
    .resp (.recv { opcode := .rcSendOnly, psn := 1 })] ++
  (List.replicate 2 (QpAct.resp .call :: List.replicate 12 (.resp .pass))).flatten

/-- What these acts need. -/
def recvCheck (k : RespSys × List RecvWr) : QpAct → Bool
  | .resp .call => k.1.ctx.qp.resp.state ≠ .reset
  | .resp (.env _ _ _) | .send _ => false
  | _ => true

theorem recvOk_of_recvCheck (k : RespSys × List RecvWr) (a : QpAct) (h : recvCheck k a) :
    RecvOk k a := by
  cases a with
  | resp a =>
    cases a with
    | call => exact of_decide_eq_true (p := k.1.ctx.qp.resp.state ≠ .reset) h
    | env => cases h
    | pass | recv | postRecv | error | shareSrq => trivial
  | send a => cases h

open Trace in
/-- Both completions are there, in the order of the receives. -/
theorem recv_order_sends :
    ∃ k, Reach recvStep RecvOk (.idle recvQp, []) k ∧ k.1.ctx.qp.rq.live = [] ∧
      (recvCqes k.1.ctx.out).map Wc.wrId = [9, 4] ∧
      ∃ gone, k.2.map RecvWr.ident = gone ∧
        (recvCqes k.1.ctx.out).map Wc.wrId = gone.map Prod.fst := by
  obtain ⟨k, hrun, hlive, hcqes⟩ : ∃ k, recvActs.foldlM (fun k a => if recvCheck k a then
      recvStep k a else none) (.idle recvQp, []) = some k ∧ k.1.ctx.qp.rq.live = [] ∧
      (recvCqes k.1.ctx.out).map Wc.wrId = [9, 4] := ⟨_, rfl, rfl, rfl⟩
  have hreach := Reach.start.foldlM_checked recvOk_of_recvCheck recvActs hrun
  obtain ⟨⟨gone, hsplit, hnames⟩, -⟩ := recv_order recvQp k
    ⟨rfl, rfl, rfl, rfl, fun _ h => (nomatch h), rfl, rfl⟩ hreach
  rw [hlive] at hsplit
  exact ⟨k, hreach, hlive, hcqes, gone, hsplit.trans (List.append_nil _), hnames⟩

end Rxe
