/-
What a receive completion says about the message.

`do_complete` fills in a CQE in the layout of the kernel or of the user, from the masks of the
last packet and from the cursor of the receive WQE.  It takes a packet with immediate data for
the end of an RDMA WRITE if it has the READ mask, which no packet with immediate data has.

* `recvCqe` — the CQE in both layouts, `recvCqe_wc` — the model of the responder has the fields
  they share;
* `recv_cqe_describes_iff` — a successful completion describes the message exactly if the
  message is a SEND;
* `recv_cqe_misdescribes` — an RDMA WRITE with immediate data of two bytes is reported as a
  receive of none.
-/
import Rxe.RecvMessage

namespace Rxe

/-! ### The CQE -/

def ibWcGrh : ℕ := 1

def ibWcWithImm : ℕ := 2

def ibWcWithInvalidate : ℕ := 4

/-- The fields at the same offset in both layouts. -/
structure CqeHead where
  wrId : ℕ := 0
  status : WcStatus := .success
  opcode : WcOpcode := .send
  vendorErr : ℕ := 0
  byteLen : ℕ := 0

/-- The fields behind them, which the two layouts have at different offsets; the number of the
QP stands for the pointer of the kernel. -/
structure CqeTail where
  qp : ℕ := 0
  ex : ℕ := 0
  srcQp : ℕ := 0
  wcFlags : ℕ := 0
  portNum : ℕ := 0

/-- `struct rxe_cqe`: a `struct ib_wc` or a `struct ib_uverbs_wc`. -/
inductive RxeCqe
  | ibwc (head : CqeHead) (tail : CqeTail)
  | uibwc (head : CqeHead) (tail : CqeTail)

namespace RxeCqe

def head : RxeCqe → CqeHead
  | .ibwc head _ | .uibwc head _ => head

def tail : RxeCqe → CqeTail
  | .ibwc _ tail | .uibwc _ tail => tail

/-- The completion as the responder records it. -/
def wc (cqe : RxeCqe) : Wc where
  wrId := cqe.head.wrId
  status := cqe.head.status
  opcode := cqe.head.opcode
  byteLen := cqe.head.byteLen
  grh := cqe.tail.wcFlags &&& ibWcGrh ≠ 0
  withImm := cqe.tail.wcFlags &&& ibWcWithImm ≠ 0
  withInvalidate := cqe.tail.wcFlags &&& ibWcWithInvalidate ≠ 0
  ex := cqe.tail.ex
  srcQp := cqe.tail.srcQp
  portNum := cqe.tail.portNum

end RxeCqe

/-- The fields that `do_complete` writes through `ib_wc` whatever the layout. -/
def recvCqeHead (qp : Qp) (wqe : RecvWqe) (pkt : Pkt) : CqeHead where
  wrId := wqe.wrId
  status := qp.resp.status
  opcode := if pkt.mask.immdt && pkt.mask.read then .recvRdmaWithImm else .recv
  vendorErr := 0
  byteLen := wqe.dma.length - wqe.dma.resid

/-- The fields that `do_complete` writes through the layout of the CQ. -/
def recvCqeTail (qp : Qp) (pkt : Pkt) : CqeTail :=
  let wc : CqeTail := { wcFlags := ibWcGrh }
  let wc := if pkt.mask.immdt then
      { wc with wcFlags := wc.wcFlags ||| ibWcWithImm, ex := pkt.immdt } else wc
  let wc := if pkt.mask.ieth then
      { wc with wcFlags := wc.wcFlags ||| ibWcWithInvalidate, ex := pkt.ieth } else wc
  let wc := { wc with qp := qp.qpNum }
  let wc := if pkt.mask.deth then { wc with srcQp := pkt.deth.sqp } else wc
  { wc with portNum := qp.attr.portNum }

/-- The CQE of `do_complete` for a CQ of the user or of the kernel. -/
def recvCqe (isUser : Bool) (qp : Qp) (wqe : RecvWqe) (pkt : Option Pkt) : RxeCqe :=
  let layout := if isUser then RxeCqe.uibwc else RxeCqe.ibwc
  match qp.resp.status, pkt with
  | .success, some pkt => layout (recvCqeHead qp wqe pkt) (recvCqeTail qp pkt)
  | status, _ => layout { wrId := wqe.wrId, status } {}

/-- Both layouts hold the completion that the responder records. -/
theorem recvCqe_wc (isUser : Bool) (qp : Qp) (wqe : RecvWqe) (pkt : Option Pkt) :
    (recvCqe isUser qp wqe pkt).wc = makeRecvCqe qp wqe pkt := by
  have hlayout : ∀ head tail, ((if isUser then RxeCqe.uibwc else RxeCqe.ibwc) head tail).wc =
      (RxeCqe.ibwc head tail).wc := by
    cases isUser <;> exact fun _ _ => rfl
  unfold recvCqe makeRecvCqe
  dsimp only
  split
  · next p hsucc =>
    rw [hlayout]
    unfold recvCqeHead recvCqeTail
    simp only [RxeCqe.wc, RxeCqe.head, RxeCqe.tail, hsucc]
    cases p.mask.immdt <;> cases p.mask.ieth <;> cases p.mask.deth <;>
      simp [ibWcGrh, ibWcWithImm, ibWcWithInvalidate]
  · rw [hlayout]
    simp [RxeCqe.wc, RxeCqe.head, RxeCqe.tail]

/-! ### The message -/

/-- The CQE tells what kind of message ended with the packet `p`, its length and the immediate
data it carried. -/
structure RxeCqe.Describes (cqe : RxeCqe) (msg : List Pkt) (p : Pkt) : Prop where
  opcode : cqe.head.opcode = if p.mask.write then .recvRdmaWithImm else .recv
  byteLen : cqe.head.byteLen = (msg.map fun q => q.payload.length).sum
  imm : p.mask.immdt → cqe.tail.wcFlags &&& ibWcWithImm ≠ 0 ∧ cqe.tail.ex = p.immdt

theorem comp_masks {p : Pkt} (h : p.mask.comp) :
    p.mask.write = !p.mask.send ∧ (p.mask.immdt && p.mask.read) = false ∧
      (p.mask.immdt && p.mask.ieth) = false := by
  revert h
  unfold Pkt.mask
  generalize p.opcode = o
  cases o <;> first | exact fun _ => ⟨rfl, rfl, rfl⟩ | exact nofun

theorem stored_of_connected {type : QpType} (h : type = .rc ∨ type = .uc) (p : Pkt) :
    p.stored type = p.payload.length := by
  rcases h with rfl | rfl <;> rfl

theorem recvCqe_describes_iff {isUser : Bool} {qp : Qp} {w : RecvWqe} {p : Pkt} {msg : List Pkt}
    (hsucc : qp.resp.status = .success) (hcomp : p.mask.comp)
    (hbytes : p.mask.send → w.dma.length - w.dma.resid = (msg.map fun q => q.payload.length).sum) :
    (recvCqe isUser qp w (some p)).Describes msg p ↔ p.mask.send := by
  obtain ⟨hwrite, hread, hieth⟩ := comp_masks hcomp
  have hhead : (recvCqe isUser qp w (some p)).head = recvCqeHead qp w p := by
    unfold recvCqe
    rw [hsucc]
    cases isUser <;> rfl
  have htail : (recvCqe isUser qp w (some p)).tail = recvCqeTail qp p := by
    unfold recvCqe
    rw [hsucc]
    cases isUser <;> rfl
  have hopcode : (recvCqeHead qp w p).opcode = .recv := by
    unfold recvCqeHead
    rw [hread]
    rfl
  constructor
  · intro h
    have hop := h.opcode
    rw [hhead, hopcode, hwrite] at hop
    cases hsend : p.mask.send with
    | true => rfl
    | false =>
      rw [hsend] at hop
      cases hop
  · intro hsend
    refine ⟨?_, ?_, fun himm => ?_⟩
    · rw [hhead, hopcode, hwrite, hsend]
      rfl
    · rw [hhead]
      exact hbytes hsend
    · rw [himm, Bool.true_and] at hieth
      rw [htail]
      unfold recvCqeTail
      cases hd : p.mask.deth <;> simp [himm, hieth, ibWcGrh, ibWcWithImm]

/-! ### Runs -/

theorem respDoComplete_posts {c : Ctx} {pkt : Option Pkt} {wc : Wc}
    (hpost : recvCqes (respDoComplete c pkt).2.out = recvCqes c.out ++ [wc]) :
    ∃ w, recvWqe c.qp = some w ∧ wc = makeRecvCqe c.qp w pkt := by
  rcases respDoComplete_cases c pkt with ⟨-, heq⟩ | ⟨w, cq, hw, heq | heq⟩ <;> rw [heq] at hpost
  · simp at hpost
  · rw [recvCqes_append] at hpost
    exact ⟨w, hw, (List.head_eq_of_cons_eq (List.append_cancel_left hpost)).symm⟩
  · rw [recvCqes_said c (silent_one rfl)] at hpost
    simp at hpost

open Trace in
/-- A receive completion without an error is posted for the message that ends with the packet
at hand.  In both layouts the CQE tells the kind of the message, its length and its immediate
data exactly if the message is a SEND. -/
theorem recv_cqe_describes_iff (c₀ : Ctx) (sys sys' : RespSys) (a : RespAct) (wc : Wc)
    (h₀ : FreshResponder c₀) (htype : c₀.qp.type = .rc ∨ c₀.qp.type = .uc)
    (hreach : Reach respPass MessageOk (.idle c₀) sys) (hstep : respPass sys a = some sys')
    (hpost : recvCqes sys'.ctx.out = recvCqes sys.ctx.out ++ [wc]) (hsucc : wc.status = .success) :
    ∃ p w, recvWqe sys.ctx.qp = some w ∧
      (∃ pre, message (execPkts sys.ctx.out) = pre ++ [p]) ∧
      (p.mask.send → SendMessage (message (execPkts sys.ctx.out)) p) ∧
      ∀ isUser, (recvCqe isUser sys.ctx.qp w (some p)).wc = wc ∧
        ((recvCqe isUser sys.ctx.qp w (some p)).Describes (message (execPkts sys.ctx.out)) p ↔
          p.mask.send) := by
  have hinv := receives_reach h₀ hreach
  have hconn : sys.ctx.qp.type = .rc ∨ sys.ctx.qp.type = .uc := by
    rw [respPass_reach_type hreach]
    exact htype
  obtain ⟨s, rfl, hstate, rfl⟩ := recvCqe_pass hstep hpost
  obtain ⟨state, pkt, c⟩ := s
  cases hstate
  obtain ⟨-, -, hend⟩ : RecvInv .complete pkt c.uc := hinv
  obtain ⟨w, hw, rfl⟩ := respDoComplete_posts hpost
  rw [makeRecvCqe_status] at hsucc
  obtain ⟨p, rfl, hcomp, hsent, hlast⟩ := hend hsucc
  refine ⟨p, w, hw, hlast, fun hsend => (hsent hsend).1, fun isUser => ⟨recvCqe_wc .., ?_⟩⟩
  refine recvCqe_describes_iff hsucc hcomp fun hsend => ?_
  show w.dma.length - w.dma.resid = ((message (execPkts c.out)).map fun q => q.payload.length).sum
  have hresid := ((hsent hsend).2 w hw).1.resid
  have hbytes : msgBytes c.qp.type (message (execPkts c.out)) =
      ((message (execPkts c.out)).map fun q => q.payload.length).sum :=
    congrArg List.sum (List.map_congr_left fun q _ => stored_of_connected hconn q)
  change w.dma.resid + msgBytes c.qp.type (message (execPkts c.out)) = w.dma.length at hresid
  omega

/-- An RC QP with one receive posted that accepts RDMA WRITEs. -/
def reportQp : Ctx where
  qp :=
    { type := .rc, sq := ⟨[], []⟩, resp := { state := .ready }
      attr := { qpAccessFlags := [.remoteWrite] }
      rq := ⟨[initRecvWqe { wrId := 9, sgList := [⟨64, 8, 256⟩] }], []⟩ }
  dev :=
    { mem := fun i =>
        if i = 1 then some { localRegion with access := [.localWrite, .remoteWrite] } else none }

theorem reportQp_fresh : FreshResponder reportQp where
  noOpcode := rfl
  noWqe := rfl
  noRes := rfl
  noPkts := rfl
  rq _ hw := ⟨_, List.mem_singleton.1 hw⟩
  srq := nofun

/-- The passes up to the completion of a message of one packet. -/
def upToComplete (p : Pkt) : List RespAct := [.recv p, .call] ++ List.replicate 8 .pass

/-- The responder before it completes the message. -/
def reportRun (p : Pkt) : Option RespSys :=
  (upToComplete p).foldlM
    (fun sys a => if messageCheck sys a then respPass sys a else none) (.idle reportQp)

def sendOfTwo : Pkt :=
  { opcode := .rcSendOnlyWithImmediate, payload := [7, 7], immdt := 5, pad := 2 }

def writeOfTwo : Pkt :=
  { opcode := .rcRdmaWriteOnlyWithImmediate, payload := [7, 7], immdt := 5, pad := 2
    reth := { va := 128, rkey := 256, len := 2 } }

/-- The CQE that is posted for the message. -/
def reportCqe (isUser : Bool) (p : Pkt) : Option RxeCqe :=
  (reportRun p).bind fun sys =>
    (recvWqe sys.ctx.qp).map fun w => recvCqe isUser sys.ctx.qp w (some p)

open Trace in
/-- A SEND with immediate data: the completion describes it. -/
theorem recv_cqe_describes_send :
    ∃ sys p w, reportRun sendOfTwo = some sys ∧ recvWqe sys.ctx.qp = some w ∧
      (recvCqe true sys.ctx.qp w (some p)).Describes (message (execPkts sys.ctx.out)) p ∧
      (recvCqe false sys.ctx.qp w (some p)).Describes (message (execPkts sys.ctx.out)) p := by
  have hrun : ((reportRun sendOfTwo).bind fun sys => (respPass sys .pass).map fun sys' =>
      (recvCqes sys.ctx.out, (recvCqes sys'.ctx.out).length, message (execPkts sys.ctx.out),
        (recvCqes sys'.ctx.out).map (·.status))) =
      some ([], 1, [sendOfTwo], [.success]) := by decide
  obtain ⟨sys, hsys, hpass⟩ := Option.bind_eq_some_iff.1 hrun
  obtain ⟨sys', hstep, hwc⟩ := Option.map_eq_some_iff.1 hpass
  obtain ⟨hbefore, hrest⟩ := Prod.mk.inj hwc
  obtain ⟨hone, hrest⟩ := Prod.mk.inj hrest
  obtain ⟨hmsg, hstatus⟩ := Prod.mk.inj hrest
  obtain ⟨wc, hafter⟩ := List.length_eq_one_iff.1 hone
  rw [hafter] at hstatus
  have hreach : Reach respPass MessageOk (.idle reportQp) sys :=
    Reach.start.foldlM_checked messageOk_of_check _ hsys
  obtain ⟨p, w, hw, ⟨pre, hp⟩, -, hdesc⟩ := recv_cqe_describes_iff reportQp sys sys' .pass wc
    reportQp_fresh (.inl rfl) hreach hstep (by rw [hbefore, hafter]; rfl)
    (List.head_eq_of_cons_eq hstatus)
  rw [hmsg] at hp
  have hlast : p = sendOfTwo := by
    have hget := congrArg List.getLast? hp
    rw [List.getLast?_concat] at hget
    exact (Option.some.inj hget).symm
  have hsend : p.mask.send := by
    rw [hlast]
    rfl
  exact ⟨sys, p, w, hsys, hw, (hdesc true).2.2 hsend, (hdesc false).2.2 hsend⟩

/-- An RDMA WRITE of two bytes with immediate data: the completion is one of a receive of no
bytes. -/
theorem recv_cqe_misdescribes :
    ((reportRun writeOfTwo).bind fun sys => (respPass sys .pass).map fun sys' =>
      (message (execPkts sys.ctx.out), (recvCqes sys'.ctx.out).map (·.status))) =
        some ([writeOfTwo], [.success]) ∧
    ((reportCqe true writeOfTwo).map fun cqe => (cqe.head.opcode, cqe.head.byteLen)) =
      some (.recv, 0) ∧
    ((reportCqe false writeOfTwo).map fun cqe => (cqe.head.opcode, cqe.head.byteLen)) =
      some (.recv, 0) := by decide

end Rxe
