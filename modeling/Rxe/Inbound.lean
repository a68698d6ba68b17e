/-
The packets that wait for a QP, and what is counted about them (`rxe_recv.c`, `rxe_comp.c`,
`rxe_resp.c`).

`rxe_rcv` takes a reference on the QP for every packet it queues, and counts the packet in
`qp->req_skb_in` and `rxe->req_skb_in` if it is a request and in `rxe->resp_skb_in` if it is
a response.  Whoever takes the packet off its queue has to free the skb, drop the reference
and count down.  `InSys` is a device with its QPs, the passes of their completers and
responders interleaved with arriving packets and all else that happens to a QP; the `Inbox`
of a QP says where each of its skbs is.

The responder pairs these steps everywhere.  The completer does so where it is done with a
packet and where it flushes the queue; when it refuses a packet, for a NAK, a missing
response or data that cannot be copied, it jumps past the common end, and the skb, the
reference and the count stay.

* `InSys.inStep_step` — what every step keeps, and which steps lose a packet;
* `inbound_accounts` — the accounts hold whenever no task runs exactly if no response was
  refused, and no packet without a BTH came with a stale `pkt->qp`;
* `inbound_lost` — an RNR NAK is counted for ever.
-/
import Mathlib.Algebra.BigOperators.Group.List.Basic
import Mathlib.Tactic.Linarith
import Rxe.CompStep
import Rxe.Custody
import Rxe.Header
import Rxe.PassFrame

namespace Rxe

variable {pkt : Option Pkt} {c : Ctx} {state : CompState} {s : CompCfg} {q q' : InQp} {i : InPlace}
  {r : Bool × Ctx} {b : Books} {p : Pkt}

/-! ### The accounts of one QP -/

/-- Where the skb of a packet can be. -/
inductive InPlace
  | reqPkts
  | respPkts
  /-- taken off `resp_pkts` by the completer, which works on it -/
  | held
  | freed
  /-- taken off a queue, and nothing points to it any more -/
  | lost
  deriving DecidableEq

/-- The skbs of the packets queued to a QP, and what is counted with them. -/
structure Inbox where
  skbs : Custody InPlace := {}
  /-- references on the QP taken for packets and not dropped -/
  refs : ℤ := 0
  /-- references dropped for packets that had none -/
  strays : ℕ := 0
  /-- `qp->req_skb_in` -/
  reqSkbIn : ℤ := 0

/-- `rxe->req_skb_in` and `rxe->resp_skb_in` -/
structure SkbIn where
  req : ℤ := 0
  resp : ℤ := 0

/-- What a step of a QP counts in. -/
structure Books where
  box : Inbox
  skbIn : SkbIn

namespace Books

/-- A request is queued: the reference, both counters, the queue. -/
def queueReq (b : Books) : Books :=
  { box := { b.box with skbs := b.box.skbs.accept .reqPkts, refs := b.box.refs + 1,
                        reqSkbIn := b.box.reqSkbIn + 1 }
    skbIn := { b.skbIn with req := b.skbIn.req + 1 } }

/-- A response is queued. -/
def queueResp (b : Books) : Books :=
  { box := { b.box with skbs := b.box.skbs.accept .respPkts, refs := b.box.refs + 1 }
    skbIn := { b.skbIn with resp := b.skbIn.resp + 1 } }

/-- `skb_dequeue(&qp->req_pkts)`, `rxe_drop_ref`, `kfree_skb` and the two counters; nothing
is freed if the queue is empty. -/
def freeReq (b : Books) : Books :=
  { box := { b.box with skbs := b.box.skbs.move .reqPkts .freed, refs := b.box.refs - 1,
                        reqSkbIn := b.box.reqSkbIn - 1 }
    skbIn := { b.skbIn with req := b.skbIn.req - 1 } }

/-- `rxe_drop_ref`, `kfree_skb` and `atomic_dec(&rxe->resp_skb_in)` for the skb of a
response. -/
def freeResp (i : InPlace) (b : Books) : Books :=
  { box := { b.box with skbs := b.box.skbs.move i .freed, refs := b.box.refs - 1 }
    skbIn := { b.skbIn with resp := b.skbIn.resp - 1 } }

/-- `while ((skb = skb_dequeue(&qp->req_pkts)))` -/
def flushReq (b : Books) : Books := freeReq^[b.box.skbs.size .reqPkts] b

/-- `while ((skb = skb_dequeue(&qp->resp_pkts)))` -/
def flushResp (b : Books) : Books := (freeResp .respPkts)^[b.box.skbs.size .respPkts] b

/-- `skb_dequeue(&qp->resp_pkts)` of `COMPST_GET_ACK`. -/
def takeResp (b : Books) : Books :=
  { b with box := { b.box with skbs := b.box.skbs.move .respPkts .held } }

/-- A call of the completer ends: what it still holds, nothing points to. -/
def leave (b : Books) : Books :=
  { b with box := { b.box with skbs := b.box.skbs.move .held .lost } }

end Books

/-- What `rxe_qp_error` does to the packets: for other types than RC it calls the completer,
which flushes the responses. -/
def errorBooks (c : Ctx) (b : Books) : Books := if c.qp.type = .rc then b else b.flushResp

/-- What a pass of the completer does to the packets. -/
def compBooks (s : CompCfg) (b : Books) : Books :=
  let b := match s.state with
    | .getAck => if s.c.qp.respPkts = [] then b else b.takeResp
    | .done => if s.pkt.isSome then b.freeResp .held else b
    | .error => errorBooks s.c b
    | _ => b
  match compStep s with
  | .inl _ => b
  | .inr _ => b.leave

/-- What a pass of the responder does to the packets. -/
def respBooks (s : RespCfg) (b : Books) : Books :=
  match s.state with
  | .getReq => if s.c.qp.resp.state = .error ∧ s.c.qp.reqPkts ≠ [] then b.freeReq else b
  | .cleanup => if s.pkt.isSome then b.freeReq else b
  | .error => errorBooks s.c b
  | .reset => b.flushReq
  | _ => b

/-! ### The system -/

/-- A QP, with what its tasks carry while they run. -/
structure InQp where
  c : Ctx
  /-- the addresses and keys the receive path reads -/
  addr : RcvQp
  /-- where `rxe_completer` stands, and the packet it holds -/
  comp : Option (CompState × Option Pkt) := none
  /-- where `rxe_responder` stands, and the packet it works on -/
  resp : Option (RespState × Option Pkt) := none
  box : Inbox := {}

namespace InQp

/-- What the receive path sees of the QP. -/
def rcvQp (q : InQp) : RcvQp :=
  { q.addr with
    type := q.c.qp.type
    valid := q.c.qp.valid
    reqState := q.c.qp.req.state
    respState := q.c.qp.resp.state
    portNum := q.c.qp.attr.portNum
    pkeyIndex := q.c.qp.attr.pkeyIndex }

/-- The number of packets the completer holds. -/
def inHand (q : InQp) : ℕ :=
  match q.comp with
  | some (_, some _) => 1
  | _ => 0

/-- `rxe_rcv_pkt`, after the reference was taken. -/
def queuePkt (q : InQp) (k : SkbIn) (toResponder : Bool) (p : Pkt) : InQp × SkbIn :=
  if toResponder then
    let b := (⟨q.box, k⟩ : Books).queueReq
    ({ q with c := rxeRespQueuePkt q.c p, box := b.box }, b.skbIn)
  else
    let b := (⟨q.box, k⟩ : Books).queueResp
    ({ q with c := rxeCompQueuePkt q.c p, box := b.box }, b.skbIn)

/-- `rxe_drop_ref(pkt->qp)` for a packet that was never queued. -/
def dropStray (q : InQp) : InQp :=
  { q with box := { q.box with refs := q.box.refs - 1, strays := q.box.strays + 1 } }

/-- The start of `rxe_completer`: it flushes the queues, waits for a retry, or enters the
loop. -/
def compCall (q : InQp) (k : SkbIn) : Option (InQp × SkbIn) :=
  if q.comp.isSome then none
  else
    let b := (⟨q.box, k⟩ : Books).flushResp
    if q.c.qp.valid = false then some ({ q with c := compDrop q.c, box := b.box }, b.skbIn)
    else if q.c.qp.req.state = .error then
      some ({ q with c := compFlush q.c, box := b.box }, b.skbIn)
    else if q.c.qp.req.state = .reset then
      some ({ q with c := compDrop q.c, box := b.box }, b.skbIn)
    else if q.c.qp.req.needRetry then some ({ q with c := compEnter q.c }, k)
    else some ({ q with c := compEnter q.c, comp := some (.getAck, none) }, k)

/-- A pass through the loop of `rxe_completer`. -/
def compPass (q : InQp) (k : SkbIn) : Option (InQp × SkbIn) :=
  match q.comp with
  | none => none
  | some (state, pkt) =>
    let b := compBooks ⟨state, pkt, q.c⟩ ⟨q.box, k⟩
    match compStep ⟨state, pkt, q.c⟩ with
    | .inl s => some ({ q with c := s.c, comp := some (s.state, s.pkt), box := b.box }, b.skbIn)
    | .inr r => some ({ q with c := r.2, comp := none, box := b.box }, b.skbIn)

/-- The start of `rxe_responder`. -/
def respCall (q : InQp) (k : SkbIn) : Option (InQp × SkbIn) :=
  if q.resp.isSome then none
  else
    match respEnter q.c with
    | .idle c => some ({ q with c }, k)
    | .busy s => some ({ q with c := s.c, resp := some (s.state, s.pkt) }, k)

/-- `rxe_qp_error` may be called: for other types than RC it calls the completer, and two
calls of the completer of a QP do not overlap. -/
def mayFail (q : InQp) : Prop := q.c.qp.type = .rc ∨ q.comp = none

instance (q : InQp) : Decidable q.mayFail :=
  inferInstanceAs (Decidable (_ ∨ q.comp = none))

/-- A pass through the loop of `rxe_responder`. -/
def respPass (q : InQp) (k : SkbIn) : Option (InQp × SkbIn) :=
  match q.resp with
  | none => none
  | some (state, pkt) =>
    if state = .error ∧ ¬ q.mayFail then none
    else
      let b := respBooks ⟨state, pkt, q.c⟩ ⟨q.box, k⟩
      match respStep ⟨state, pkt, q.c⟩ with
      | .inl s => some ({ q with c := s.c, resp := some (s.state, s.pkt), box := b.box }, b.skbIn)
      | .inr r => some ({ q with c := r.2, resp := none, box := b.box }, b.skbIn)

/-- `rxe_qp_error`, called by a verb or by the requester. -/
def fail (q : InQp) (k : SkbIn) : Option (InQp × SkbIn) :=
  if q.mayFail then
    let b := errorBooks q.c ⟨q.box, k⟩
    some ({ q with c := rxeQpError q.c, box := b.box }, b.skbIn)
  else none

/-- Anything else that happens to the QP: the requester, the verbs, the timers, the memory.
The packet queues stay as they are, and only the completer retires a WQE it works on. -/
def change (q : InQp) (k : SkbIn) (c : Ctx) : Option (InQp × SkbIn) :=
  if c.qp.reqPkts = q.c.qp.reqPkts ∧ c.qp.respPkts = q.c.qp.respPkts ∧
      (q.c.sqHead.isSome → c.sqHead.isSome) then
    some ({ q with c }, k)
  else none

end InQp

/-- `rxe_rcv` drops the buffer before it looks at the BTH. -/
def noBth (skb : RcvSkb) : Bool :=
  match parseLrh skb with
  | none => true
  | some (lrh, paylen, grh) =>
    match parseGrh skb lrh paylen grh with
    | none => true
    | some (offset, _) => skb.len < offset + 12

/-- A device with its QPs, by index. -/
structure InSys where
  qps : List InQp := []
  skbIn : SkbIn := {}

namespace InSys

/-- The device as the receive path sees it; `port` has the tables and the groups. -/
def rcvDev (s : InSys) (port : RcvDev) : RcvDev :=
  { port with qp := fun i => s.qps[i]?.map InQp.rcvQp }

/-- A step of one QP. -/
def onQp (s : InSys) (i : ℕ) (f : InQp → SkbIn → Option (InQp × SkbIn)) : Option InSys :=
  match s.qps[i]? with
  | none => none
  | some q => (f q s.skbIn).map fun r => { qps := s.qps.set i r.1, skbIn := r.2 }

/-- A packet is queued where `rxe_rcv` sends it. -/
def deliver (s : InSys) (d : Delivery) : InSys :=
  (s.onQp d.qp fun q k => some (q.queuePkt k d.toResponder d.pkt.toPkt)).getD s

/-- `rxe_rcv`.  The label `drop` tests `pkt->qp`, which is null only once the BTH was found;
`stale` is what it held before. -/
def rcv (s : InSys) (port : RcvDev) (skb : RcvSkb) (clones : List Bool) (stale : Option ℕ) :
    InSys :=
  match noBth skb, stale with
  | true, some i => (s.onQp i fun q k => some (q.dropStray, k)).getD s
  | _, _ => (rxeRcv (s.rcvDev port) skb clones).foldl deliver s

end InSys

/-- What can happen. -/
inductive InAct
  /-- a QP is created -/
  | create (c : Ctx) (addr : RcvQp)
  /-- a packet arrives -/
  | rcv (port : RcvDev) (skb : RcvSkb) (clones : List Bool) (stale : Option ℕ)
  | compCall (i : ℕ)
  | compPass (i : ℕ)
  | respCall (i : ℕ)
  | respPass (i : ℕ)
  | fail (i : ℕ)
  | change (i : ℕ) (c : Ctx)

def inStep (s : InSys) : InAct → Option InSys
  | .create c addr =>
    some { s with qps := s.qps ++ [⟨{ c with qp.reqPkts := [], qp.respPkts := [] }, addr, none,
      none, {}⟩] }
  | .rcv port skb clones stale => some (s.rcv port skb clones stale)
  | .compCall i => s.onQp i InQp.compCall
  | .compPass i => s.onQp i InQp.compPass
  | .respCall i => s.onQp i InQp.respCall
  | .respPass i => s.onQp i InQp.respPass
  | .fail i => s.onQp i InQp.fail
  | .change i c => s.onQp i fun q k => q.change k c

/-! ### Which steps lose a packet -/

/-- A test the completer makes of the response in its hand, for the oldest WQE, fails. -/
def RefusedBy (state : CompState) (p : Pkt) (c : Ctx) (w : SendWqe) : Prop :=
  match state with
  | .getWqe => w.state = .error
  -- a response to a read or an atomic is missing
  | .checkPsn => w.mask.atomicOrRead ∧
      if 0 < psnCompare p.psn w.lastPsn then w.state = .pending
      else 0 < psnCompare p.psn c.qp.comp.psn
  -- it does not go with the WQE, or is a NAK
  | .checkAck => unfit c p w ∨ p.opcode = .rcAcknowledge ∧ p.aethType ≠ aethAck
  | .read => (copyDataIn c.dev c.qp.pd (some .localWrite) w.dma p.payload).2.2 ≠ .ok ()
  | .atomic =>
    (copyDataIn c.dev c.qp.pd (some .localWrite) w.dma (u64Bytes p.atmack)).2.2 ≠ .ok ()
  | _ => False

/-- The completer is about to refuse the response in its hand. -/
def Refused (state : CompState) (p : Pkt) (c : Ctx) : Prop :=
  ∃ w, c.sqHead = some w ∧ RefusedBy state p c w

/-- A step after which the accounts can still come right. -/
def InOk (s : InSys) : InAct → Prop
  | .rcv _ skb _ stale => noBth skb → ∀ i, stale = some i → s.qps[i]? = none
  | .compPass i => ∀ q state p, s.qps[i]? = some q → q.comp = some (state, some p) →
      ¬ Refused state p q.c
  | _ => True

/-! ### The accounts -/

/-- No task is running. -/
def InSys.Quiet (s : InSys) : Prop := ∀ q ∈ s.qps, q.comp = none ∧ q.resp = none

/-- Each waiting packet holds one reference, and so does a packet the completer works on. -/
def InQp.RefEach (q : InQp) : Prop :=
  q.box.refs = q.c.qp.reqPkts.length + q.c.qp.respPkts.length + q.inHand

/-- The counters are the lengths of the queues, each waiting packet holds one reference, and
each skb that was taken off a queue was freed once. -/
structure InSys.Settled (s : InSys) : Prop where
  resp : s.skbIn.resp = (s.qps.map fun q => (q.c.qp.respPkts.length : ℤ)).sum
  req : s.skbIn.req = (s.qps.map fun q => (q.c.qp.reqPkts.length : ℤ)).sum
  qpReq : ∀ q ∈ s.qps, q.box.reqSkbIn = q.c.qp.reqPkts.length
  refs : ∀ q ∈ s.qps, q.box.refs = q.c.qp.reqPkts.length + q.c.qp.respPkts.length
  freed : ∀ q ∈ s.qps, ∀ n < q.box.skbs.next,
    (q.box.skbs.place .freed).count n =
      if n ∈ q.box.skbs.place .reqPkts ∨ n ∈ q.box.skbs.place .respPkts then 0 else 1

/-! ### What the operations keep -/

/-- Responses that were queued and not freed. -/
def Inbox.due (x : Inbox) : ℤ :=
  x.skbs.size .respPkts + x.skbs.size .held + x.skbs.size .lost

/-- The accounts of a QP, whatever was lost. -/
structure Inbox.Balanced (x : Inbox) : Prop where
  skbs : x.skbs.Ok
  refs : x.refs = x.skbs.size .reqPkts + x.due - x.strays
  reqSkbIn : x.reqSkbIn = x.skbs.size .reqPkts

namespace Books

/-- The accounts of the QP stay right, and the counters of the device move with them. -/
structure Moves (b b' : Books) : Prop where
  balanced : b.box.Balanced → b'.box.Balanced
  req : b'.skbIn.req - b'.box.skbs.size .reqPkts = b.skbIn.req - b.box.skbs.size .reqPkts
  resp : b'.skbIn.resp - b'.box.due = b.skbIn.resp - b.box.due

theorem Moves.refl (b : Books) : b.Moves b := ⟨id, rfl, rfl⟩

theorem Moves.trans {b' b'' : Books} (h : b.Moves b') (h' : b'.Moves b'') : b.Moves b'' :=
  ⟨fun hb => h'.balanced (h.balanced hb), h'.req.trans h.req, h'.resp.trans h.resp⟩

/-- `dr` more requests wait and `dd` more responses are due, and the counters say so. -/
theorem Moves.of_counts {b' : Books} (dr dd : ℤ) (hok : b.box.skbs.Ok → b'.box.skbs.Ok)
    (hreq : (b'.box.skbs.size .reqPkts : ℤ) = b.box.skbs.size .reqPkts + dr)
    (hdue : b'.box.due = b.box.due + dd) (hstrays : b'.box.strays = b.box.strays)
    (hrefs : b'.box.refs = b.box.refs + (dr + dd)) (hqp : b'.box.reqSkbIn = b.box.reqSkbIn + dr)
    (hdev : b'.skbIn.req = b.skbIn.req + dr) (hdev' : b'.skbIn.resp = b.skbIn.resp + dd) :
    b.Moves b' := by
  refine ⟨fun hb => ⟨hok hb.skbs, ?_, ?_⟩, by omega, by omega⟩
  · rw [hrefs, hb.refs, hreq, hdue, hstrays]
    ring
  · rw [hqp, hb.reqSkbIn, hreq]

/-- `n` skbs of a place are freed. -/
structure Frees (i : InPlace) (n : ℕ) (b b' : Books) : Prop extends Moves b b' where
  size : b'.box.skbs.size i + n = b.box.skbs.size i
  other : ∀ j, j ≠ i → j ≠ .freed → b'.box.skbs.size j = b.box.skbs.size j
  strays : b'.box.strays = b.box.strays

variable {b : Books}

theorem freeReq_frees (h : 0 < b.box.skbs.size .reqPkts) : Frees .reqPkts 1 b b.freeReq := by
  have hsize := b.box.skbs.size_move_src (i := .reqPkts) (j := .freed) nofun
  have hother : ∀ j, j ≠ InPlace.reqPkts → j ≠ .freed →
      b.freeReq.box.skbs.size j = b.box.skbs.size j :=
    fun j hj hj' => b.box.skbs.size_move_of_ne hj hj'
  have hdue : b.freeReq.box.due = b.box.due := by
    unfold Inbox.due
    rw [hother .respPkts nofun nofun, hother .held nofun nofun, hother .lost nofun nofun]
  change b.freeReq.box.skbs.size .reqPkts = _ at hsize
  refine ⟨.of_counts (-1) 0 (fun hok => Custody.move_ok hok nofun) (by omega)
    (by rw [hdue]; ring) rfl
    rfl rfl rfl (add_zero _).symm, by omega, hother, rfl⟩

theorem freeResp_frees (hi : i = .respPkts ∨ i = .held)
    (h : 0 < b.box.skbs.size i) : Frees i 1 b (b.freeResp i) := by
  have hreq : InPlace.reqPkts ≠ i := by rcases hi with rfl | rfl <;> nofun
  have hfreed : i ≠ .freed := by rcases hi with rfl | rfl <;> nofun
  have hsize := b.box.skbs.size_move_src hfreed
  have hother : ∀ j, j ≠ i → j ≠ .freed →
      (b.freeResp i).box.skbs.size j = b.box.skbs.size j :=
    fun j hj hj' => b.box.skbs.size_move_of_ne hj hj'
  have hdue : (b.freeResp i).box.due = b.box.due - 1 := by
    unfold Inbox.due
    change (b.freeResp i).box.skbs.size i = _ at hsize
    -- the skb leaves one of the three places where a response is due
    rcases hi with rfl | rfl
    · rw [hother .held nofun nofun, hother .lost nofun nofun, hsize]
      omega
    · rw [hother .respPkts nofun nofun, hother .lost nofun nofun, hsize]
      omega
  change (b.freeResp i).box.skbs.size i = _ at hsize
  have hsame := hother .reqPkts hreq nofun
  exact ⟨.of_counts 0 (-1) (fun hok => Custody.move_ok hok hfreed) (by omega) (by omega) rfl rfl
    (add_zero _).symm (add_zero _).symm rfl, by omega, hother, rfl⟩

theorem Frees.iterate {op : Books → Books}
    (hop : ∀ b : Books, 0 < b.box.skbs.size i → Frees i 1 b (op b)) (n : ℕ) :
    ∀ b : Books, n ≤ b.box.skbs.size i → Frees i n b (op^[n] b) := by
  -- induction on the number of skbs: the first is freed, and the loop goes on from there
  induction n with
  | zero => exact fun b _ => ⟨.refl b, rfl, fun _ _ _ => rfl, rfl⟩
  | succ n ih =>
    intro b hle
    have hfirst := hop b (by omega)
    have hrest := ih (op b) (by have := hfirst.size; omega)
    rw [Function.iterate_succ_apply]
    exact
      { toMoves := hfirst.toMoves.trans hrest.toMoves
        size := by have h₁ := hfirst.size; have h₂ := hrest.size; omega
        other := fun j hj hj' => (hrest.other j hj hj').trans (hfirst.other j hj hj')
        strays := hrest.strays.trans hfirst.strays }

theorem flushReq_frees (b : Books) :
    Frees .reqPkts (b.box.skbs.size .reqPkts) b b.flushReq :=
  Frees.iterate (fun _ => freeReq_frees) _ b le_rfl

theorem flushResp_frees (b : Books) :
    Frees .respPkts (b.box.skbs.size .respPkts) b b.flushResp :=
  Frees.iterate (fun _ => freeResp_frees (Or.inl rfl)) _ b le_rfl

theorem move_moves {j : InPlace} (hij : i ≠ j) (hi : i = .respPkts ∨ i = .held)
    (hj : j = .held ∨ j = .lost) :
    b.Moves { b with box := { b.box with skbs := b.box.skbs.move i j } } := by
  have hreq : (b.box.skbs.move i j).size .reqPkts = b.box.skbs.size .reqPkts :=
    b.box.skbs.size_move_of_ne (by rcases hi with rfl | rfl <;> nofun)
      (by rcases hj with rfl | rfl <;> nofun)
  have hdue : ({ b.box with skbs := b.box.skbs.move i j } : Inbox).due = b.box.due := by
    by_cases hpos : 0 < b.box.skbs.size i
    · have hsrc := b.box.skbs.size_move_src hij
      have hdst := b.box.skbs.size_move_dst (j := j) hpos
      have hother : ∀ k, k ≠ i → k ≠ j → (b.box.skbs.move i j).size k = b.box.skbs.size k :=
        fun k => b.box.skbs.size_move_of_ne
      unfold Inbox.due
      -- what leaves one place is in the other, so the sum stays
      rcases hi with rfl | rfl <;> rcases hj with rfl | rfl
      · rw [hsrc, hdst, hother .lost nofun nofun]
        omega
      · rw [hsrc, hdst, hother .held nofun nofun]
        omega
      · exact absurd rfl hij
      · rw [hsrc, hdst, hother .respPkts nofun nofun]
        omega
    · rw [Custody.move_of_size_zero _ (Nat.eq_zero_of_not_pos hpos)]
  exact .of_counts 0 0 (fun hok => Custody.move_ok hok hij) (by dsimp only; rw [hreq, add_zero])
    (by dsimp only; rw [hdue, add_zero]) rfl (add_zero _).symm (add_zero _).symm (add_zero _).symm
    (add_zero _).symm

theorem takeResp_moves (b : Books) : b.Moves b.takeResp :=
  move_moves nofun (Or.inl rfl) (Or.inl rfl)

theorem leave_moves (b : Books) : b.Moves b.leave := move_moves nofun (Or.inr rfl) (Or.inr rfl)

theorem queueReq_moves (b : Books) : b.Moves b.queueReq := by
  have hreq : b.queueReq.box.skbs.size .reqPkts = b.box.skbs.size .reqPkts + 1 :=
    b.box.skbs.size_accept_self
  have hother : ∀ j, j ≠ .reqPkts → b.queueReq.box.skbs.size j = b.box.skbs.size j :=
    fun j hj => b.box.skbs.size_accept_of_ne hj
  have hdue : b.queueReq.box.due = b.box.due := by
    unfold Inbox.due
    rw [hother .respPkts nofun, hother .held nofun, hother .lost nofun]
  exact .of_counts 1 0 (fun hok => Custody.accept_ok hok _) (by omega)
    (by rw [hdue, add_zero]) rfl rfl
    rfl rfl (add_zero _).symm

theorem queueResp_moves (b : Books) : b.Moves b.queueResp := by
  have hother : ∀ j, j ≠ .respPkts → b.queueResp.box.skbs.size j = b.box.skbs.size j :=
    fun j hj => b.box.skbs.size_accept_of_ne hj
  have hreq := hother .reqPkts nofun
  have hresp : b.queueResp.box.skbs.size .respPkts = b.box.skbs.size .respPkts + 1 :=
    b.box.skbs.size_accept_self
  have hdue : b.queueResp.box.due = b.box.due + 1 := by
    unfold Inbox.due
    rw [hresp, hother .held nofun, hother .lost nofun]
    omega
  exact .of_counts 0 1 (fun hok => Custody.accept_ok hok _) (by omega) hdue rfl rfl
    (add_zero _).symm
    (add_zero _).symm rfl

end Books

/-! ### What the tasks know about their packets -/

/-- States in which the completer has given up. -/
def CompState.refusing : CompState → Bool
  | .errorRetry | .rnrRetry | .error => true
  | _ => false

section Refusal

variable {state : CompState} {p : Pkt} {c : Ctx} {w : SendWqe}

theorem getWqe_refusing (hw : c.sqHead = some w) :
    (getWqe c (some p)).refusing ↔ w.state = .error := by
  unfold getWqe
  rw [hw]
  dsimp only
  cases w.state <;> simp [CompState.refusing]

theorem compCheckPsn_refusing (c : Ctx) (p : Pkt) (w : SendWqe) :
    (compCheckPsn c p w).1.refusing ↔ w.mask.atomicOrRead ∧
      if 0 < psnCompare p.psn w.lastPsn then w.state = .pending
      else 0 < psnCompare p.psn c.qp.comp.psn := by
  have h := compCheckPsn_outcome c p w
  generalize compCheckPsn c p w = r at h
  -- only a missing response to a read or an atomic is an error
  cases h with
  | lost h hw hmask => simp [CompState.refusing, h, hw, hmask]
  | implied h hw hmask => simp [CompState.refusing, hmask]
  | early h hw => simp [CompState.refusing, h, hw]
  | again h hpsn | old h hpsn =>
    simp only [CompState.refusing, h, if_false, Bool.false_eq_true, false_iff]
    rintro ⟨-, hpos⟩
    omega
  | skipped h hpsn hmask => simp [CompState.refusing, h, hpsn, hmask]
  | current h hpsn hnext =>
    simp only [CompState.refusing, h, if_false, Bool.false_eq_true, false_iff]
    exact fun hno => hnext ⟨hno.2, hno.1⟩

theorem checkAck_refusing (c : Ctx) (p : Pkt) (w : SendWqe) :
    (checkAck c p w).1.refusing ↔
      unfit c p w ∨ p.opcode = .rcAcknowledge ∧ p.aethType ≠ aethAck := by
  have h := checkAck_outcome c p w
  generalize checkAck c p w = r at h
  cases h with
  | unfit h => exact iff_of_true rfl (Or.inl h)
  | read _ hop hfit | atomic _ hop hfit =>
    refine iff_of_false nofun ?_
    rintro (h | ⟨h, -⟩)
    · exact hfit h
    · exact hop h
  | ack h hack hfit =>
    refine iff_of_false nofun ?_
    rintro (h | ⟨-, h⟩)
    · exact hfit h
    · exact h hack
  | rnr h hty | seq h hty | seqPast _ h hty | nak _ _ _ h hty =>
    exact iff_of_true rfl (Or.inr ⟨h, by rw [hty]; decide⟩)

theorem copyResponse_refusing (c : Ctx) (p : Pkt) (w : SendWqe) (data : List UInt8)
    {next : DmaInfo → CompState} (hnext : ∀ dma, (next dma).refusing = false) :
    (copyResponse c p w data next).1.refusing ↔
      (copyDataIn c.dev c.qp.pd (some .localWrite) w.dma data).2.2 ≠ .ok () := by
  unfold copyResponse
  split
  · next herr => simp [CompState.refusing, herr]
  · next hok => simp [hnext, hok]

theorem doAtomic_refusing (c : Ctx) (p : Pkt) (w : SendWqe) :
    (doAtomic c p w).1.refusing ↔ RefusedBy .atomic p c w := by
  exact copyResponse_refusing c p w _ fun _ => rfl

theorem refused_iff (hw : c.sqHead = some w) : Refused state p c ↔ RefusedBy state p c w := by
  constructor
  · rintro ⟨w', hw', h⟩
    cases hw.symm.trans hw'
    exact h
  · exact fun h => ⟨w, hw, h⟩

theorem goto_refusing {r : CompState × Ctx} (hw : c.sqHead = some w)
    (hstate : state.refusing = false)
    (hstep : (CompCfg.mk state (some p) c).goto r = .inl s)
    (hr : r.1.refusing ↔ RefusedBy state p c w) :
    s.pkt = some p ∧ (s.state.refusing ↔ state.refusing ∨ Refused state p c) := by
  cases hstep
  rw [refused_iff hw, hstate]
  exact ⟨rfl, fun h => Or.inr (hr.1 h), fun h => hr.2 (h.resolve_left nofun)⟩

theorem compStep_refusing (h : Hand state (some p) c)
    (hstep : compStep ⟨state, some p, c⟩ = .inl s) :
    s.pkt = some p ∧ (s.state.refusing ↔ state.refusing ∨ Refused state p c) := by
  have hwqe : state.onWqe → ∃ w, c.sqHead = some w :=
    fun ho => Option.isSome_iff_exists.1 (h.onWqe ho).2
  cases state with
  | getAck => exact absurd rfl (h.taken rfl).1
  | exit => exact absurd rfl (h.taken rfl).2
  | getWqe =>
    cases hw : c.sqHead with
    | none =>
      -- without a WQE the response is dropped
      cases hstep
      refine ⟨rfl, iff_of_false ?_ ?_⟩
      · unfold getWqe
        rw [hw]
        exact nofun
      · rintro (hno | ⟨w, hw', -⟩)
        · cases hno
        · cases hw.symm.trans hw'
    | some w => exact goto_refusing (r := (getWqe c (some p), c)) hw rfl hstep (getWqe_refusing hw)
  | checkPsn =>
    obtain ⟨w, hw⟩ := hwqe rfl
    exact goto_refusing hw rfl ((step_withPktWqe p hw _ _).symm.trans hstep)
      (compCheckPsn_refusing c p w)
  | checkAck =>
    obtain ⟨w, hw⟩ := hwqe rfl
    exact goto_refusing hw rfl ((step_withPktWqe p hw _ _).symm.trans hstep)
      (checkAck_refusing c p w)
  | read =>
    obtain ⟨w, hw⟩ := hwqe rfl
    exact goto_refusing hw rfl ((step_withPktWqe p hw _ _).symm.trans hstep)
      (copyResponse_refusing c p w _ fun dma => by split <;> rfl)
  | atomic =>
    obtain ⟨w, hw⟩ := hwqe rfl
    exact goto_refusing hw rfl ((step_withPktWqe p hw _ _).symm.trans hstep)
      (doAtomic_refusing c p w)
  | writeSend =>
    obtain ⟨w, hw⟩ := hwqe rfl
    refine goto_refusing hw rfl ((step_withPktWqe p hw _ _).symm.trans hstep) (iff_of_false ?_ id)
    split <;> exact nofun
  | compAck =>
    obtain ⟨w, hw⟩ := hwqe rfl
    refine goto_refusing hw rfl ((step_withPktWqe p hw _ _).symm.trans hstep) (iff_of_false ?_ id)
    unfold completeAck
    dsimp only
    split <;> exact nofun
  | compWqe | updateComp =>
    cases hstep
    refine ⟨rfl, iff_of_false nofun ?_⟩
    rintro (hno | ⟨_, -, hno⟩) <;> cases hno
  | done | error => cases hstep
  | errorRetry =>
    obtain ⟨w, -, rfl⟩ := errorRetry_inl hstep
    exact ⟨rfl, iff_of_true rfl (Or.inl rfl)⟩
  | rnrRetry =>
    obtain ⟨w, -, rfl⟩ := rnrRetry_inl hstep
    exact ⟨rfl, iff_of_true rfl (Or.inl rfl)⟩

theorem compStep_ends (h : Hand state (some p) c)
    (hstep : compStep ⟨state, some p, c⟩ = .inr r) : state = .done ∨ state.refusing := by
  cases state with
  | getAck => exact absurd rfl (h.taken rfl).1
  | exit => exact absurd rfl (h.taken rfl).2
  | getWqe | compWqe | updateComp => cases hstep
  | checkPsn | checkAck | read | atomic | writeSend | compAck =>
    obtain ⟨w, hw⟩ := Option.isSome_iff_exists.1 (h.onWqe rfl).2
    have hgoto := (step_withPktWqe p hw _ _).symm.trans hstep
    cases hgoto
  | done => exact Or.inl rfl
  | errorRetry | rnrRetry | error => exact Or.inr rfl

end Refusal

theorem Hand.congr {c' : Ctx} (h : Hand state pkt c)
    (hw : c.sqHead.isSome → c'.sqHead.isSome) : Hand state pkt c' :=
  { h with onWqe := fun ho => ⟨(h.onWqe ho).1, hw (h.onWqe ho).2⟩ }

/-- States in which the responder is no longer concerned with the packet. -/
def RespState.over : RespState → Bool
  | .done | .exit | .error | .reset => true
  | _ => false

/-- The packet the responder works on is still in the queue. -/
structure Peeked (state : RespState) (pkt : Option Pkt) (c : Ctx) : Prop where
  fresh : state = .getReq → pkt = none
  queued : pkt.isSome → state.over = false → c.qp.reqPkts ≠ []

theorem Peeked.congr {state : RespState} {c' : Ctx} (h : Peeked state pkt c)
    (hq : c.qp.reqPkts ≠ [] → c'.qp.reqPkts ≠ []) : Peeked state pkt c' :=
  { h with queued := fun hp ho => hq (h.queued hp ho) }

theorem respStep_over {s s' : RespCfg} (ho : s.state.over) (hstep : respStep s = .inl s') :
    s'.state.over := by
  obtain ⟨state, pkt, c⟩ := s
  cases state with
  | done | exit =>
    rw [respStep] at hstep
    dsimp only at hstep
    split at hstep <;> cases hstep
    rfl
  | error | reset => cases hstep
  | getReq | chkPsn | chkOpSeq | chkOpValid | chkResource | chkLength | chkRkey | execute
  | readReply | complete | acknowledge | cleanup | duplicateRequest | errMalformedWqe
  | errUnsupportedOpcode | errMisalignedAtomic | errPsnOutOfSeq | errMissingOpcodeFirst
  | errMissingOpcodeLastC | errMissingOpcodeLastD1e | errTooManyRdmaAtmReq | errRnr
  | errRkeyViolation | errLength | errCqOverflow => cases ho

theorem respStep_peeked {s s' : RespCfg} (h : Peeked s.state s.pkt s.c)
    (hstep : respStep s = .inl s') : Peeked s'.state s'.pkt s'.c := by
  have hframe := respStep_frame s
  have hnext := respStep_next.step (g := s.state) (s := s) trivial
  rw [hstep] at hframe hnext
  change RespFrame s s'.pkt s'.c at hframe
  -- only `get_req` takes a packet; every other pass keeps the one in hand
  by_cases hget : s.state = .getReq
  · obtain ⟨state, pkt, c⟩ := s
    cases (show state = .getReq from hget)
    cases (show pkt = none from h.fresh rfl)
    change Sum.inl (RespCfg.mk (getReq c none).1 (getReq c none).2.1 (getReq c none).2.2) = _
      at hstep
    cases hstep
    unfold getReq
    split
    · split <;> exact ⟨fun _ => rfl, nofun⟩
    · split
      · exact ⟨nofun, nofun⟩
      · next p pkts hq =>
        refine ⟨fun hs => ?_, fun _ _ => ?_⟩
        · split at hs <;> cases hs
        · rw [hq]
          exact List.cons_ne_nil p pkts
  · refine ⟨fun hs => absurd (hnext.2 hs) hget, fun hp ho => ?_⟩
    have hover : s.state.over = false := by
      by_contra hno
      rw [respStep_over (by simpa using hno) hstep] at ho
      cases ho
    have hpkt : s'.pkt = s.pkt ∧ (s.state = .cleanup ∨ s'.c.qp.reqPkts = s.c.qp.reqPkts) := by
      generalize s'.pkt = pkt', s'.c = c' at hframe
      cases hframe with
      | getReq hs => exact absurd hs hget
      | cleanup hs => exact ⟨rfl, Or.inl hs⟩
      | error hs | reset hs => rw [hs] at hover; cases hover
      | work _ _ _ _ hwork =>
        obtain ⟨byte, rq, srq, resp, skb, cq, out, rfl, -⟩ := hwork
        exact ⟨rfl, Or.inr rfl⟩
    -- `cleanup` takes the packet off the queue and is done with it
    rcases hpkt.2 with hs | hq
    · obtain ⟨state, pkt, c⟩ := s
      cases (show state = .cleanup from hs)
      cases hstep
      cases ho
    · rw [hq]
      exact h.queued (hpkt.1 ▸ hp) hover

theorem dropSq_pkts (n : ℕ) : ∀ c : Ctx, (dropSq n c).qp.reqPkts = c.qp.reqPkts ∧
    (dropSq n c).qp.respPkts = c.qp.respPkts := by
  induction n with
  | zero => exact fun _ => ⟨rfl, rfl⟩
  | succ n ih => exact fun c => ih (advanceSq c)

theorem compFlush_pkts (c : Ctx) :
    (compFlush c).qp.reqPkts = c.qp.reqPkts ∧ (compFlush c).qp.respPkts = [] := by
  unfold compFlush
  obtain ⟨req, sq, cq, es, -, h⟩ := flushSq_resp c.qp.sq.live.length { c with qp.respPkts := [] }
  rw [h]
  exact ⟨rfl, rfl⟩

theorem rxeQpError_pkts (c : Ctx) : (rxeQpError c).qp.reqPkts = c.qp.reqPkts ∧
    (rxeQpError c).qp.respPkts = if c.qp.type = .rc then c.qp.respPkts else [] := by
  unfold rxeQpError
  dsimp only
  by_cases hrc : c.qp.type = .rc
  · rw [if_pos hrc, if_pos (show ((toErrorState c).emit .runResp).qp.type = .rc from hrc)]
    exact ⟨rfl, rfl⟩
  · rw [if_neg hrc, if_neg (show ((toErrorState c).emit .runResp).qp.type ≠ .rc from hrc)]
    exact compFlush_pkts ((toErrorState c).emit .runResp)

theorem rxeQpError_sqHead (hrc : c.qp.type = .rc) : (rxeQpError c).sqHead = c.sqHead := by
  unfold rxeQpError
  dsimp only
  rw [if_pos (show ((toErrorState c).emit .runResp).qp.type = .rc from hrc)]
  rfl

/-! ### Steps of one QP -/

namespace InQp

/-- The skbs are where the queues and the completer have them. -/
structure Inv (q : InQp) : Prop where
  balanced : q.box.Balanced
  reqPkts : q.box.skbs.size .reqPkts = q.c.qp.reqPkts.length
  respPkts : q.box.skbs.size .respPkts = q.c.qp.respPkts.length
  held : q.box.skbs.size .held = q.inHand
  comp : ∀ state pkt, q.comp = some (state, pkt) → Hand state pkt q.c
  resp : ∀ state pkt, q.resp = some (state, pkt) → Peeked state pkt q.c

/-- An skb is lost or about to be, or a reference was dropped too many. -/
def Spoiled (q : InQp) : Prop :=
  0 < q.box.skbs.size .lost ∨ 0 < q.box.strays ∨
    ∃ state p, q.comp = some (state, some p) ∧ state.refusing

/-- A step of a QP; it spoils the accounts unless `ok`. -/
structure Step (q : InQp) (k : SkbIn) (q' : InQp) (k' : SkbIn) (ok : Prop) : Prop where
  inv : q'.Inv
  req : k'.req - q'.box.skbs.size .reqPkts = k.req - q.box.skbs.size .reqPkts
  resp : k'.resp - q'.box.due = k.resp - q.box.due
  spoiled : q'.Spoiled ↔ q.Spoiled ∨ ¬ ok

variable {q q' : InQp} {k k' : SkbIn}

theorem inHand_none (h : q.comp = none) : q.inHand = 0 := by
  unfold inHand
  rw [h]

theorem inHand_some (h : q.comp = some (state, pkt)) :
    q.inHand = if pkt.isSome then 1 else 0 := by
  unfold inHand
  rw [h]
  cases pkt <;> rfl

theorem spoiled_none (h : q.comp = none) :
    q.Spoiled ↔ 0 < q.box.skbs.size .lost ∨ 0 < q.box.strays := by
  unfold Spoiled
  rw [h]
  simp

theorem spoiled_noPkt (h : q.comp = some (state, none)) :
    q.Spoiled ↔ 0 < q.box.skbs.size .lost ∨ 0 < q.box.strays := by
  unfold Spoiled
  rw [h]
  simp

theorem spoiled_pkt (h : q.comp = some (state, some p)) :
    q.Spoiled ↔ 0 < q.box.skbs.size .lost ∨ 0 < q.box.strays ∨ state.refusing := by
  unfold Spoiled
  rw [h]
  simp

theorem Inv.peeked (h : q.Inv) (hreq : c.qp.reqPkts = q.c.qp.reqPkts) (state : RespState)
    (pkt : Option Pkt) (hs : q.resp = some (state, pkt)) : Peeked state pkt c :=
  (h.resp state pkt hs).congr (by rw [hreq]; exact id)

theorem same_step {resp : Option (RespState × Option Pkt)} (h : q.Inv)
    (hreq : c.qp.reqPkts = q.c.qp.reqPkts) (hresp : c.qp.respPkts = q.c.qp.respPkts)
    (hw : q.c.sqHead.isSome → c.sqHead.isSome)
    (hpeek : ∀ state pkt, resp = some (state, pkt) → Peeked state pkt c) :
    q.Step k { q with c, resp } k True := by
  refine ⟨⟨h.balanced, ?_, ?_, h.held, ?_, hpeek⟩, rfl, rfl, by rw [not_true, or_false]; rfl⟩
  · rw [hreq]
    exact h.reqPkts
  · rw [hresp]
    exact h.respPkts
  · exact fun state pkt hs => (h.comp state pkt hs).congr hw

theorem queuePkt_step (h : q.Inv) (toResponder : Bool) (p : Pkt) :
    q.Step k (q.queuePkt k toResponder p).1 (q.queuePkt k toResponder p).2 True := by
  have hother : ∀ i j : InPlace, j ≠ i → (q.box.skbs.accept i).size j = q.box.skbs.size j :=
    fun _ _ hj => q.box.skbs.size_accept_of_ne hj
  -- no skb goes to the lost ones, so nothing is spoiled
  have hsame : ∀ i, InPlace.lost ≠ i → ∀ q' : InQp, q'.box.skbs = q.box.skbs.accept i →
      q'.box.strays = q.box.strays → q'.comp = q.comp → (q'.Spoiled ↔ q.Spoiled ∨ ¬ True) := by
    intro i hi q' hskbs hstrays hcomp
    unfold Spoiled
    rw [hskbs, hstrays, hcomp, hother i .lost hi]
    simp
  cases toResponder with
  | true =>
    have hmoves := (Books.mk q.box k).queueReq_moves
    refine ⟨⟨hmoves.balanced h.balanced, ?_, ?_, ?_, ?_, ?_⟩, hmoves.req, hmoves.resp,
      hsame .reqPkts nofun _ rfl rfl rfl⟩
    · have hlen : (q.c.qp.reqPkts ++ [p]).length = q.c.qp.reqPkts.length + 1 := List.length_append
      exact q.box.skbs.size_accept_self.trans ((congrArg (· + 1) h.reqPkts).trans hlen.symm)
    · exact (hother .reqPkts .respPkts nofun).trans h.respPkts
    · exact (hother .reqPkts .held nofun).trans h.held
    · exact fun state pkt hs => (h.comp state pkt hs).congr id
    · exact fun state pkt hs => (h.resp state pkt hs).congr fun _ =>
        List.append_ne_nil_of_right_ne_nil q.c.qp.reqPkts (List.cons_ne_nil p [])
  | false =>
    have hmoves := (Books.mk q.box k).queueResp_moves
    refine ⟨⟨hmoves.balanced h.balanced, ?_, ?_, ?_, ?_, ?_⟩, hmoves.req, hmoves.resp,
      hsame .respPkts nofun _ rfl rfl rfl⟩
    · exact (hother .respPkts .reqPkts nofun).trans h.reqPkts
    · have hlen : (q.c.qp.respPkts ++ [p]).length = q.c.qp.respPkts.length + 1 := List.length_append
      exact q.box.skbs.size_accept_self.trans ((congrArg (· + 1) h.respPkts).trans hlen.symm)
    · exact (hother .respPkts .held nofun).trans h.held
    · exact fun state pkt hs => (h.comp state pkt hs).congr id
    · exact h.peeked rfl

theorem dropStray_step (h : q.Inv) : q.Step k q.dropStray k False := by
  have hrefs := h.balanced.refs
  refine ⟨{ h with balanced := ⟨h.balanced.skbs, ?_, h.balanced.reqSkbIn⟩ }, rfl, rfl, ?_⟩
  · change q.box.refs - 1 = q.box.skbs.size .reqPkts + q.box.due - ((q.box.strays + 1 : ℕ) : ℤ)
    omega
  · exact iff_of_true (Or.inr (Or.inl (Nat.succ_pos _))) (Or.inr not_false)

theorem change_step (h : q.Inv) (hstep : q.change k c = some (q', k')) :
    q.Step k q' k' True := by
  obtain ⟨hsame, hstep⟩ := Option.ite_none_right_eq_some.1 hstep
  obtain ⟨hreq, hresp, hw⟩ := hsame
  cases hstep
  exact same_step h hreq hresp hw (h.peeked hreq)

theorem flush_step (h : q.Inv) (hcomp : q.comp = none)
    (hreq : c.qp.reqPkts = q.c.qp.reqPkts) (hresp : c.qp.respPkts = []) :
    q.Step k { q with c, box := (Books.mk q.box k).flushResp.box }
      (Books.mk q.box k).flushResp.skbIn True := by
  have hfrees := (Books.mk q.box k).flushResp_frees
  refine ⟨⟨hfrees.balanced h.balanced, ?_, ?_, ?_, ?_, ?_⟩, hfrees.req, hfrees.resp, ?_⟩
  · rw [hreq]
    exact (hfrees.other .reqPkts nofun nofun).trans h.reqPkts
  · rw [hresp]
    have hsize := hfrees.size
    change (Books.mk q.box k).flushResp.box.skbs.size .respPkts = 0
    omega
  · exact (hfrees.other .held nofun nofun).trans h.held
  · exact fun state pkt hs => by
      rw [show q.comp = some (state, pkt) from hs] at hcomp
      cases hcomp
  · exact h.peeked hreq
  · rw [spoiled_none hcomp, spoiled_none (q := { q with c, box := _ }) hcomp, not_true, or_false]
    rw [hfrees.strays, hfrees.other .lost nofun nofun]

theorem compCall_step (h : q.Inv) (hstep : q.compCall k = some (q', k')) :
    q.Step k q' k' True := by
  obtain ⟨hidle, hstep⟩ := Option.ite_none_left_eq_some.1 hstep
  have hcomp : q.comp = none := by simpa using hidle
  -- a QP that is not in use drops its responses
  have hdrop : q.Step k { q with c := compDrop q.c, box := (Books.mk q.box k).flushResp.box }
      (Books.mk q.box k).flushResp.skbIn True :=
    flush_step h hcomp (dropSq_pkts _ _).1 (dropSq_pkts _ _).2
  split at hstep
  · cases hstep
    exact hdrop
  · split at hstep
    · cases hstep
      exact flush_step h hcomp (compFlush_pkts q.c).1 (compFlush_pkts q.c).2
    · split at hstep
      · cases hstep
        exact hdrop
      · split at hstep
        · cases hstep
          exact same_step h rfl rfl id (h.peeked rfl)
        · cases hstep
          refine ⟨⟨h.balanced, h.reqPkts, h.respPkts, ?_, ?_, ?_⟩, rfl, rfl, ?_⟩
          · exact h.held.trans (inHand_none hcomp)
          · rintro state pkt hs
            cases hs
            exact ⟨nofun, nofun, nofun⟩
          · exact h.peeked rfl
          · rw [spoiled_none hcomp, not_true, or_false]
            exact spoiled_noPkt rfl

theorem error_step {resp : Option (RespState × Option Pkt)} (h : q.Inv)
    (hmay : q.mayFail) (htype : c.qp.type = q.c.qp.type) (hreq : c.qp.reqPkts = q.c.qp.reqPkts)
    (hresp : c.qp.respPkts = q.c.qp.respPkts) (hw : c.sqHead = q.c.sqHead)
    (hpeek : ∀ state pkt, resp = some (state, pkt) → q.resp = some (state, pkt)) :
    q.Step k { q with c := rxeQpError c, resp, box := (errorBooks q.c ⟨q.box, k⟩).box }
      (errorBooks q.c ⟨q.box, k⟩).skbIn True := by
  obtain ⟨hreq', hresp'⟩ := rxeQpError_pkts c
  rw [hreq] at hreq'
  -- an RC QP keeps its responses; for the others the completer flushes them
  by_cases hrc : q.c.qp.type = .rc
  · rw [htype, if_pos hrc, hresp] at hresp'
    unfold errorBooks
    rw [if_pos hrc]
    refine same_step h hreq' hresp' ?_ fun state pkt hs => h.peeked hreq' _ _ (hpeek state pkt hs)
    rw [rxeQpError_sqHead (htype.trans hrc), hw]
    exact id
  · rw [htype, if_neg hrc] at hresp'
    have hcomp : q.comp = none := hmay.resolve_left hrc
    have hflush := flush_step (k := k) h hcomp hreq' hresp'
    unfold errorBooks
    rw [if_neg hrc]
    exact ⟨{ hflush.inv with
        resp := fun state pkt hs => hflush.inv.resp state pkt (hpeek state pkt hs) },
      hflush.req, hflush.resp, hflush.spoiled⟩

theorem fail_step (h : q.Inv) (hstep : q.fail k = some (q', k')) : q.Step k q' k' True := by
  obtain ⟨hmay, ⟨⟩⟩ := Option.ite_none_right_eq_some.1 hstep
  exact error_step h hmay rfl rfl rfl rfl fun _ _ hs => hs

theorem respCall_step (h : q.Inv) (hstep : q.respCall k = some (q', k')) :
    q.Step k q' k' True := by
  obtain ⟨hguard, hstep⟩ := Option.ite_none_left_eq_some.1 hstep
  unfold respEnter at hstep
  dsimp only at hstep
  split at hstep
  · next heq =>
    split at heq <;> cases heq
    cases hstep
    exact same_step h rfl rfl id (h.peeked rfl)
  · next heq =>
    split at heq <;> cases heq
    cases hstep
    refine same_step h rfl rfl id ?_
    rintro state pkt hs
    cases hs
    exact ⟨fun _ => rfl, nofun⟩

theorem respFrame_other {s : RespCfg} (hstate : s.state ≠ .error)
    (hframe : RespFrame s pkt c) : c.qp.respPkts = s.c.qp.respPkts ∧ c.sqHead = s.c.sqHead := by
  cases hframe with
  -- a request is taken off its own queue
  | getReq hs =>
    unfold getReq
    split
    · split <;> exact ⟨rfl, rfl⟩
    · split <;> exact ⟨rfl, rfl⟩
  | cleanup hs => exact ⟨rfl, rfl⟩
  | error hs => exact absurd hs hstate
  | reset hs => exact ⟨rfl, rfl⟩
  | work hget hclean herr hreset hwork =>
    obtain ⟨byte, rq, srq, resp, skb, cq, out, rfl, -⟩ := hwork
    exact ⟨rfl, rfl⟩

theorem respBooks_frees {s : RespCfg}
    (hstate : s.state ≠ .error) (hpeek : Peeked s.state s.pkt s.c)
    (hsize : b.box.skbs.size .reqPkts = s.c.qp.reqPkts.length) (hframe : RespFrame s pkt c) :
    ∃ n, Books.Frees .reqPkts n b (respBooks s b) ∧
      c.qp.reqPkts.length + n = s.c.qp.reqPkts.length := by
  have hrefl : Books.Frees .reqPkts 0 b b := ⟨.refl b, rfl, fun _ _ _ => rfl, rfl⟩
  have hone : s.c.qp.reqPkts ≠ [] → Books.Frees .reqPkts 1 b b.freeReq := fun hne =>
    Books.freeReq_frees (by rw [hsize]; exact List.length_pos_iff.2 hne)
  obtain ⟨state, pkt₀, c₀⟩ := s
  dsimp only at hstate hpeek hsize hone ⊢
  -- a packet is freed in `get_req`, `cleanup` and the reset, and nowhere else
  cases hframe with
  | getReq hs =>
    cases hs
    dsimp only [respBooks, getReq]
    by_cases herr : c₀.qp.resp.state = .error
    · rw [if_pos herr]
      cases hq : c₀.qp.reqPkts with
      | nil => exact ⟨0, by rw [if_neg (by simp)]; exact hrefl, by simp [hq]⟩
      | cons p pkts =>
        refine ⟨1, ?_, by simp⟩
        rw [if_pos ⟨herr, List.cons_ne_nil p pkts⟩]
        exact hone (by rw [hq]; exact List.cons_ne_nil p pkts)
    · rw [if_neg herr, if_neg fun hno : _ ∧ _ => herr hno.1]
      exact ⟨0, hrefl, by split <;> rfl⟩
  | cleanup hs =>
    cases hs
    dsimp only [respBooks, cleanup]
    cases pkt₀ with
    | none => exact ⟨0, hrefl, rfl⟩
    | some p =>
      have hne := hpeek.queued rfl rfl
      refine ⟨1, hone hne, ?_⟩
      obtain ⟨p', pkts, hq⟩ := List.exists_cons_of_ne_nil hne
      simp [hq]
  | error hs => exact absurd hs hstate
  | reset hs =>
    cases hs
    have hflush := b.flushReq_frees
    rw [hsize] at hflush
    exact ⟨_, hflush, Nat.zero_add _⟩
  | work hget hclean herr hreset hwork =>
    obtain ⟨byte, rq, srq, resp, skb, cq, out, rfl, -⟩ := hwork
    refine ⟨0, ?_, rfl⟩
    unfold respBooks
    dsimp only
    split
    · exact absurd rfl hget
    · exact absurd rfl hclean
    · exact absurd rfl herr
    · exact absurd rfl hreset
    · exact hrefl

theorem respPass_frame_step {state : RespState} {pkt' : Option Pkt}
    {resp : Option (RespState × Option Pkt)} (h : q.Inv) (hrun : q.resp = some (state, pkt))
    (hmay : state = .error → q.mayFail) (hframe : RespFrame ⟨state, pkt, q.c⟩ pkt' c)
    (hpeek : ∀ state' p, resp = some (state', p) → state ≠ .error ∧ Peeked state' p c) :
    q.Step k { q with c, resp, box := (respBooks ⟨state, pkt, q.c⟩ ⟨q.box, k⟩).box }
      (respBooks ⟨state, pkt, q.c⟩ ⟨q.box, k⟩).skbIn True := by
  -- the pass that fails the QP also runs the completer
  by_cases herr : state = .error
  · subst herr
    cases hframe with
    | getReq hs | cleanup hs | reset hs => cases hs
    | work _ _ hno _ _ => exact absurd rfl hno
    | error _ =>
      exact error_step h (hmay rfl) rfl rfl rfl rfl
        fun state' p hs => absurd rfl (hpeek state' p hs).1
  · obtain ⟨hresp, hw⟩ := respFrame_other herr hframe
    obtain ⟨n, hfrees, hlen⟩ := respBooks_frees (b := ⟨q.box, k⟩) herr (h.resp state pkt hrun)
      h.reqPkts hframe
    dsimp only at hresp hw hlen
    refine ⟨⟨hfrees.balanced h.balanced, ?_, ?_, ?_, ?_, fun _ _ hs => (hpeek _ _ hs).2⟩,
      hfrees.req, hfrees.resp, ?_⟩
    · have hsize := hfrees.size
      have hreq := h.reqPkts
      dsimp only at hsize ⊢
      omega
    · rw [hresp]
      exact (hfrees.other .respPkts nofun nofun).trans h.respPkts
    · exact (hfrees.other .held nofun nofun).trans h.held
    · exact fun state pkt hs => (h.comp state pkt hs).congr (by rw [hw]; exact id)
    · rw [not_true, or_false]
      unfold Spoiled
      rw [hfrees.strays, hfrees.other .lost nofun nofun]

theorem respPass_step (h : q.Inv) (hstep : q.respPass k = some (q', k')) :
    q.Step k q' k' True := by
  unfold respPass at hstep
  split at hstep
  · cases hstep
  · next state pkt hrun =>
    obtain ⟨hmay, hstep⟩ := Option.ite_none_left_eq_some.1 hstep
    have hframe := respStep_frame ⟨state, pkt, q.c⟩
    have hfail : state = .error → q.mayFail := fun hs => not_not.1 fun hno => hmay ⟨hs, hno⟩
    split at hstep
    · next s heq =>
      cases hstep
      rw [heq] at hframe
      refine respPass_frame_step h hrun hfail hframe ?_
      rintro state' p hs
      cases hs
      -- the error state ends the call, so the pass does not go on from it
      refine ⟨?_, respStep_peeked (s := ⟨state, pkt, q.c⟩) (h.resp state pkt hrun) heq⟩
      rintro rfl
      cases heq
    · next r heq =>
      cases hstep
      rw [heq] at hframe
      have hend : RespFrame ⟨state, pkt, q.c⟩ pkt r.2 := hframe
      refine respPass_frame_step h hrun hfail hend ?_
      rintro state' p hs
      cases hs

end InQp

namespace InQp

variable {q q' : InQp} {k k' : SkbIn}

/-- A call of the completer ends with the books `b`; a packet still in its hand is lost. -/
theorem leave_step {ok : Prop} (h : q.Inv)
    (hmoves : (Books.mk q.box k).Moves b) (hreq : b.box.skbs.size .reqPkts = c.qp.reqPkts.length)
    (hresp : b.box.skbs.size .respPkts = c.qp.respPkts.length) (hheld : b.box.skbs.size .held ≤ 1)
    (hpeek : c.qp.reqPkts = q.c.qp.reqPkts)
    (hspoiled : 0 < b.box.skbs.size .lost ∨ 0 < b.box.strays ∨ 0 < b.box.skbs.size .held ↔
      q.Spoiled ∨ ¬ ok) :
    q.Step k { q with c, comp := none, box := b.leave.box } b.leave.skbIn ok := by
  have hleave := hmoves.trans b.leave_moves
  have hother : ∀ j, j ≠ InPlace.held → j ≠ .lost →
      b.leave.box.skbs.size j = b.box.skbs.size j :=
    fun j hj hj' => b.box.skbs.size_move_of_ne hj hj'
  have hsrc : b.leave.box.skbs.size .held = b.box.skbs.size .held - 1 :=
    b.box.skbs.size_move_src nofun
  -- what the completer still holds is lost, and it holds at most one skb
  have hlost : 0 < b.leave.box.skbs.size .lost ↔
      0 < b.box.skbs.size .lost ∨ 0 < b.box.skbs.size .held := by
    rcases Nat.eq_zero_or_pos (b.box.skbs.size .held) with hzero | hpos
    · have hsame : b.leave.box.skbs = b.box.skbs := b.box.skbs.move_of_size_zero hzero
      rw [hsame, hzero]
      omega
    · have hdst : b.leave.box.skbs.size .lost = b.box.skbs.size .lost + 1 :=
        b.box.skbs.size_move_dst hpos
      omega
  refine ⟨⟨hleave.balanced h.balanced, ?_, ?_, ?_, ?_, ?_⟩, hleave.req, hleave.resp, ?_⟩
  · exact (hother .reqPkts nofun nofun).trans hreq
  · exact (hother .respPkts nofun nofun).trans hresp
  · change b.leave.box.skbs.size .held = 0
    omega
  · rintro state pkt hs
    cases hs
  · exact h.peeked hpeek
  · have hstrays : b.leave.box.strays = b.box.strays := rfl
    rw [← hspoiled, spoiled_none (q := { q with c, comp := none, box := _ }) rfl]
    rw [hlost, hstrays, or_assoc, or_comm (a := 0 < b.box.skbs.size .held)]

theorem errorBooks_frees (c : Ctx) (b : Books) :
    Books.Frees .respPkts (if c.qp.type = .rc then 0 else b.box.skbs.size .respPkts) b
      (errorBooks c b) := by
  unfold errorBooks
  split
  · exact ⟨.refl b, rfl, fun _ _ _ => rfl, rfl⟩
  · exact b.flushResp_frees

theorem compError_step (h : q.Inv) (hrun : q.comp = some (.error, pkt)) :
    q.Step k { q with c := rxeQpError (doComplete q.c), comp := none,
                      box := (errorBooks q.c ⟨q.box, k⟩).leave.box }
      (errorBooks q.c ⟨q.box, k⟩).leave.skbIn True := by
  have hheld := h.held
  rw [inHand_some hrun] at hheld
  obtain ⟨req, sq, cq, es, -, hdone⟩ := doComplete_resp q.c
  obtain ⟨hreq, hresp⟩ := rxeQpError_pkts (doComplete q.c)
  rw [hdone] at hreq hresp ⊢
  dsimp only at hreq hresp
  have hfrees := errorBooks_frees q.c ⟨q.box, k⟩
  have hheld' := hfrees.other .held nofun nofun
  refine leave_step h hfrees.toMoves ?_ ?_ ?_ hreq ?_
  · rw [hreq]
    exact (hfrees.other .reqPkts nofun nofun).trans h.reqPkts
  · have hsize := hfrees.size
    have hlen := h.respPkts
    rw [hresp]
    dsimp only at hsize
    split at hsize
    · next hrc => rw [if_pos hrc]; omega
    · next hrc => rw [if_neg hrc, List.length_nil]; omega
  · rw [hheld', hheld]
    split <;> omega
  · rw [hheld', hheld, hfrees.strays, hfrees.other .lost nofun nofun, not_true, or_false]
    -- a packet in hand here was refused before
    cases pkt with
    | none =>
      rw [spoiled_noPkt hrun]
      simp
    | some p =>
      rw [spoiled_pkt hrun]
      exact or_congr_right (or_congr_right (iff_of_true Nat.one_pos rfl))

theorem compDone_step (h : q.Inv) (hrun : q.comp = some (.done, pkt)) :
    q.Step k { q with comp := none, box :=
        (if pkt.isSome then (Books.mk q.box k).freeResp .held else ⟨q.box, k⟩).leave.box }
      (if pkt.isSome then (Books.mk q.box k).freeResp .held else ⟨q.box, k⟩).leave.skbIn True := by
  have hheld := h.held
  rw [inHand_some hrun] at hheld
  cases pkt with
  | none =>
    refine leave_step (c := q.c) h (.refl _) h.reqPkts h.respPkts (hheld.trans_le zero_le_one)
      rfl ?_
    rw [spoiled_noPkt hrun, not_true, or_false]
    change _ ∨ _ ∨ 0 < q.box.skbs.size .held ↔ _
    rw [hheld]
    simp
  | some p =>
    -- the skb in hand is freed, so that nothing is left to lose
    have hfrees := Books.freeResp_frees (b := ⟨q.box, k⟩) (Or.inr rfl)
      (by rw [hheld]; exact Nat.one_pos)
    have hsize := hfrees.size
    have hzero : ((Books.mk q.box k).freeResp .held).box.skbs.size .held = 0 := by
      change _ = 1 at hheld
      dsimp only at hsize
      omega
    refine leave_step (c := q.c) h hfrees.toMoves ?_ ?_ (hzero.trans_le zero_le_one) rfl ?_
    · exact (hfrees.other .reqPkts nofun nofun).trans h.reqPkts
    · exact (hfrees.other .respPkts nofun nofun).trans h.respPkts
    · rw [spoiled_pkt hrun, not_true, or_false, Option.isSome_some, if_pos rfl, hfrees.strays,
        hfrees.other .lost nofun nofun, hzero]
      exact or_congr_right (or_congr_right (iff_of_false (lt_irrefl 0) nofun))

theorem compTake_step {pkts : List Pkt} (h : q.Inv)
    (hrun : q.comp = some (.getAck, pkt)) (hq : q.c.qp.respPkts = p :: pkts) :
    q.Step k { q with c := { q.c with qp.respPkts := pkts, qp.comp.timeoutRetry := false },
                      comp := some (.getWqe, some p), box := (Books.mk q.box k).takeResp.box }
      (Books.mk q.box k).takeResp.skbIn True := by
  have hhand := h.comp .getAck pkt hrun
  cases pkt with
  | some p => exact absurd rfl (hhand.taken rfl).1
  | none =>
    have hmoves := (Books.mk q.box k).takeResp_moves
    have hother : ∀ j, j ≠ InPlace.respPkts → j ≠ .held →
        (q.box.skbs.move .respPkts .held).size j = q.box.skbs.size j :=
      fun j hj hj' => q.box.skbs.size_move_of_ne hj hj'
    have hlen : q.box.skbs.size .respPkts = pkts.length + 1 := by
      rw [h.respPkts, hq]
      rfl
    -- the hand is empty, and one response moves into it
    have hheld : q.box.skbs.size .held = 0 := h.held.trans (inHand_some hrun)
    refine ⟨⟨hmoves.balanced h.balanced, ?_, ?_, ?_, ?_, ?_⟩, hmoves.req, hmoves.resp, ?_⟩
    · exact (hother .reqPkts nofun nofun).trans h.reqPkts
    · have hsrc : (q.box.skbs.move .respPkts .held).size .respPkts =
          q.box.skbs.size .respPkts - 1 :=
        q.box.skbs.size_move_src nofun
      exact hsrc.trans (by rw [hlen]; rfl)
    · exact (q.box.skbs.size_move_dst (by omega)).trans (by rw [hheld]; rfl)
    · rintro state pkt hs
      cases hs
      exact .ofSome ⟨nofun, nofun⟩ nofun
    · exact h.peeked rfl
    · rw [not_true, or_false, spoiled_noPkt hrun, spoiled_pkt rfl]
      change 0 < (q.box.skbs.move .respPkts .held).size .lost ∨ 0 < q.box.strays ∨ _ ↔ _
      rw [hother .lost nofun nofun]
      simp [CompState.refusing]

theorem compWork_step (h : q.Inv)
    (hrun : q.comp = some (state, pkt)) (hstep : compStep ⟨state, pkt, q.c⟩ = .inl s)
    (hpkt : s.pkt = pkt) (hwork : CompWork q.c s.c) :
    q.Step k { q with c := s.c, comp := some (s.state, s.pkt) } k
      (∀ p, pkt = some p → ¬ Refused state p q.c) := by
  have hhand := h.comp state pkt hrun
  have hnext := handRule.step (s := ⟨state, pkt, q.c⟩) hhand
  rw [hstep] at hnext
  obtain ⟨dev, req, comp, sq, cq, out, hc⟩ := hwork
  refine ⟨⟨h.balanced, ?_, ?_, ?_, ?_, ?_⟩, rfl, rfl, ?_⟩
  · rw [hc]
    exact h.reqPkts
  · rw [hc]
    exact h.respPkts
  · rw [h.held, inHand_some hrun, inHand_some rfl, hpkt]
  · rintro state' pkt' hs
    cases hs
    exact hnext
  · exact h.peeked (by rw [hc])
  · cases pkt with
    | none =>
      rw [spoiled_noPkt hrun, hpkt, spoiled_noPkt rfl]
      refine (or_iff_left fun hno => hno fun p hp => ?_).symm
      cases hp
    | some p =>
      -- the pass spoils the accounts exactly if it refuses the packet
      obtain ⟨-, hrefusing⟩ := compStep_refusing hhand hstep
      rw [spoiled_pkt hrun, hpkt, spoiled_pkt rfl, hrefusing]
      simp only [Option.some.injEq, forall_eq', not_not, or_assoc]

theorem compGiveUp_step (h : q.Inv)
    (hrun : q.comp = some (state, pkt)) (hstep : compStep ⟨state, pkt, q.c⟩ = .inr r)
    (hdone : state ≠ .done) (hwork : CompWork q.c r.2) :
    q.Step k { q with c := r.2, comp := none, box := (Books.mk q.box k).leave.box }
      (Books.mk q.box k).leave.skbIn (∀ p, pkt = some p → ¬ Refused state p q.c) := by
  have hheld : q.box.skbs.size .held = if pkt.isSome then 1 else 0 :=
    h.held.trans (inHand_some hrun)
  obtain ⟨dev, req, comp, sq, cq, out, hc⟩ := hwork
  rw [hc]
  refine leave_step h (.refl _) h.reqPkts h.respPkts ?_ rfl ?_
  · rw [hheld]
    split <;> omega
  · rw [hheld]
    cases pkt with
    | none =>
      have hok : ¬ ¬ ∀ p, none = some p → ¬ Refused state p q.c := not_not.2 fun p hp => by cases hp
      rw [spoiled_noPkt hrun, or_iff_left hok]
      simp
    | some p =>
      -- the loop ends with a packet in hand only after it was refused
      have hends := (compStep_ends (h.comp state _ hrun) hstep).resolve_left hdone
      rw [spoiled_pkt hrun]
      exact iff_of_true (Or.inr (Or.inr Nat.one_pos)) (Or.inl (Or.inr (Or.inr hends)))

theorem compBooks_inl {s' : CompCfg} (b : Books) (hstep : compStep s = .inl s')
    (hget : s.state = .getAck → s.c.qp.respPkts = []) : compBooks s b = b := by
  unfold compBooks
  rw [hstep]
  obtain ⟨state, pkt, c⟩ := s
  cases state with
  | getAck => exact if_pos (hget rfl)
  | done | error => cases hstep
  | getWqe | compWqe | compAck | checkPsn | checkAck | read | atomic | writeSend | updateComp
  | exit | errorRetry | rnrRetry => rfl

theorem compBooks_inr (b : Books) (hstep : compStep s = .inr r)
    (hdone : s.state ≠ .done) (herr : s.state ≠ .error)
    (hget : s.state = .getAck → s.c.qp.respPkts = []) : compBooks s b = b.leave := by
  unfold compBooks
  rw [hstep]
  obtain ⟨state, pkt, c⟩ := s
  cases state with
  | getAck =>
    rw [if_pos (hget rfl)]
  | done => exact absurd rfl hdone
  | error => exact absurd rfl herr
  | getWqe | compWqe | compAck | checkPsn | checkAck | read | atomic | writeSend | updateComp
  | exit | errorRetry | rnrRetry => rfl

theorem not_refused_iff
    (h : ∀ {p} w, ¬ RefusedBy state p c w) :
    (∀ p, pkt = some p → ¬ Refused state p c) ↔ True :=
  iff_true_intro fun _ _ ⟨w, _, hw⟩ => h w hw

theorem compPass_next_step (h : q.Inv)
    (hrun : q.comp = some (state, pkt)) (hstep : compStep ⟨state, pkt, q.c⟩ = .inl s) :
    q.Step k { q with c := s.c, comp := some (s.state, s.pkt),
                      box := (compBooks ⟨state, pkt, q.c⟩ ⟨q.box, k⟩).box }
      (compBooks ⟨state, pkt, q.c⟩ ⟨q.box, k⟩).skbIn
      (∀ p, pkt = some p → ¬ Refused state p q.c) := by
  have hframe := compStep_frame ⟨state, pkt, q.c⟩
  rw [hstep] at hframe
  obtain ⟨state', pkt', c'⟩ := s
  change CompFrame _ pkt' c' at hframe
  cases hframe with
  | take hs hq =>
    cases hs
    change q.c.qp.respPkts = _ at hq
    have hfirst := hstep
    unfold compStep at hfirst
    rw [hq] at hfirst
    cases hfirst
    -- only `get_ack` takes a response
    have hbooks : compBooks ⟨.getAck, pkt, q.c⟩ ⟨q.box, k⟩ = (Books.mk q.box k).takeResp := by
      unfold compBooks
      rw [hstep]
      exact if_neg (by rw [hq]; exact List.cons_ne_nil _ _)
    rw [hbooks, not_refused_iff fun w => id]
    exact compTake_step h hrun hq
  | error hs =>
    cases hs
    cases hstep
  | work herr hget hwork =>
    rw [compBooks_inl _ hstep hget]
    exact compWork_step h hrun hstep rfl hwork

theorem compPass_end_step (h : q.Inv)
    (hrun : q.comp = some (state, pkt)) (hstep : compStep ⟨state, pkt, q.c⟩ = .inr r) :
    q.Step k { q with c := r.2, comp := none,
                      box := (compBooks ⟨state, pkt, q.c⟩ ⟨q.box, k⟩).box }
      (compBooks ⟨state, pkt, q.c⟩ ⟨q.box, k⟩).skbIn
      (∀ p, pkt = some p → ¬ Refused state p q.c) := by
  have hframe := compStep_frame ⟨state, pkt, q.c⟩
  rw [hstep] at hframe
  obtain ⟨again, c'⟩ := r
  change CompFrame _ pkt c' at hframe
  -- `done` frees the packet and `error` fails the QP; the other exits just leave
  by_cases hdone : state = .done
  · subst hdone
    cases hstep
    rw [not_refused_iff fun w => id]
    exact compDone_step h hrun
  · cases hframe with
    | take hs hq =>
      cases hs
      exact absurd rfl ((h.comp _ _ hrun).taken rfl).1
    | error hs =>
      cases hs
      rw [not_refused_iff fun w => id]
      exact compError_step h hrun
    | work herr hget hwork =>
      rw [compBooks_inr _ hstep hdone herr hget]
      exact compGiveUp_step h hrun hstep hdone hwork

theorem compPass_step (h : q.Inv) (hstep : q.compPass k = some (q', k')) :
    q.Step k q' k' (∀ state p, q.comp = some (state, some p) → ¬ Refused state p q.c) := by
  unfold compPass at hstep
  split at hstep
  · cases hstep
  · next state pkt hrun =>
    have hok : (∀ state p, q.comp = some (state, some p) → ¬ Refused state p q.c) ↔
        ∀ p, pkt = some p → ¬ Refused state p q.c := by
      refine ⟨fun hall p hp => hall state p (hrun.trans (by rw [hp])), fun hall state' p hp => ?_⟩
      cases hrun.symm.trans hp
      exact hall p rfl
    rw [hok]
    split at hstep
    · next s heq =>
      cases hstep
      exact compPass_next_step h hrun heq
    · next r heq =>
      cases hstep
      exact compPass_end_step h hrun heq

end InQp

/-! ### Steps of the system -/

namespace InSys

variable {s s' s'' : InSys}

/-- The QPs keep their accounts, and the device counts them all. -/
structure Inv (s : InSys) : Prop where
  qps : ∀ q ∈ s.qps, q.Inv
  req : s.skbIn.req = (s.qps.map fun q => (q.box.skbs.size .reqPkts : ℤ)).sum
  resp : s.skbIn.resp = (s.qps.map fun q => q.box.due).sum

def Spoiled (s : InSys) : Prop := ∃ q ∈ s.qps, q.Spoiled

/-- A step of the system; it spoils the accounts unless `ok`. -/
structure Step (s s' : InSys) (ok : Prop) : Prop where
  inv : s'.Inv
  spoiled : s'.Spoiled ↔ s.Spoiled ∨ ¬ ok

theorem Step.refl (h : s.Inv) : s.Step s True := ⟨h, by rw [not_true, or_false]⟩

theorem Step.trans {ok : Prop} (h : s.Step s' True) (h' : s'.Step s'' ok) : s.Step s'' ok :=
  ⟨h'.inv, by rw [h'.spoiled, h.spoiled, not_true, or_false]⟩

theorem Step.congr {ok ok' : Prop} (h : s.Step s' ok) (hok : ok ↔ ok') : s.Step s' ok' :=
  ⟨h.inv, by rw [h.spoiled, hok]⟩

theorem sum_map_set {f : InQp → ℤ} {qps : List InQp} {i : ℕ}
    (hq : qps[i]? = some q) : ((qps.set i q').map f).sum = (qps.map f).sum - f q + f q' := by
  obtain ⟨hi, rfl⟩ := List.getElem?_eq_some_iff.1 hq
  rw [List.map_set, List.sum_set', dif_pos (by rwa [List.length_map]), List.getElem_map]
  ring

theorem spoiled_set {qps : List InQp} {i : ℕ} {k : SkbIn} {bad : Prop}
    (hq : qps[i]? = some q) (hbad : q'.Spoiled ↔ q.Spoiled ∨ bad) :
    (InSys.mk (qps.set i q') k).Spoiled ↔ (∃ q ∈ qps, q.Spoiled) ∨ bad := by
  obtain ⟨hi, hget⟩ := List.getElem?_eq_some_iff.1 hq
  have hmem : q' ∈ qps.set i q' := List.mem_set hi q'
  constructor
  · rintro ⟨x, hx, hspoiled⟩
    rcases List.mem_or_eq_of_mem_set hx with hx | rfl
    · exact Or.inl ⟨x, hx, hspoiled⟩
    · exact (hbad.1 hspoiled).imp_left fun h => ⟨q, hget ▸ List.getElem_mem hi, h⟩
  · rintro (⟨x, hx, hspoiled⟩ | h)
    · obtain ⟨j, hj, rfl⟩ := List.mem_iff_getElem.1 hx
      -- the QP that changed, or another one
      by_cases hij : i = j
      · subst hij
        exact ⟨q', hmem, hbad.2 (Or.inl (hget ▸ hspoiled))⟩
      · refine ⟨qps[j], ?_, hspoiled⟩
        rw [← List.getElem_set_ne hij (a := q') (by rwa [List.length_set])]
        exact List.getElem_mem _
    · exact ⟨q', hmem, hbad.2 (Or.inr h)⟩

theorem set_step {i : ℕ} {k' : SkbIn} {ok : Prop} (h : s.Inv)
    (hq : s.qps[i]? = some q) (hstep : q.Step s.skbIn q' k' ok) :
    s.Step ⟨s.qps.set i q', k'⟩ ok := by
  have hreq := hstep.req
  have hresp := hstep.resp
  refine ⟨⟨fun x hx => ?_, ?_, ?_⟩, spoiled_set hq hstep.spoiled⟩
  · exact (List.mem_or_eq_of_mem_set hx).elim (h.qps x) fun heq => heq ▸ hstep.inv
  · rw [sum_map_set hq, ← h.req]
    dsimp only
    omega
  · rw [sum_map_set hq, ← h.resp]
    dsimp only
    omega

theorem onQp_step {i : ℕ} {f : InQp → SkbIn → Option (InQp × SkbIn)} {ok : Prop} (h : s.Inv)
    (hf : ∀ q k q' k', s.qps[i]? = some q → q.Inv → f q k = some (q', k') → q.Step k q' k' ok)
    (hstep : s.onQp i f = some s') : s.Step s' ok := by
  unfold onQp at hstep
  split at hstep
  · cases hstep
  · next q hq =>
    obtain ⟨⟨q', k'⟩, hfq, rfl⟩ := Option.map_eq_some_iff.1 hstep
    exact set_step h hq (hf q _ q' k' hq (h.qps q (List.mem_of_getElem? hq)) hfq)

theorem deliver_step (h : s.Inv) (d : Delivery) : s.Step (s.deliver d) True := by
  unfold deliver onQp
  split
  · exact .refl h
  · next q hq =>
    exact set_step h hq
      (InQp.queuePkt_step (h.qps q (List.mem_of_getElem? hq)) d.toResponder d.pkt.toPkt)

theorem deliveries_step (ds : List Delivery) (h : s.Inv) : s.Step (ds.foldl deliver s) True := by
  induction ds generalizing s with
  | nil => exact .refl h
  | cons d ds ih =>
    have hd := deliver_step h d
    exact hd.trans (ih hd.inv)

theorem stray_step {i : ℕ} (h : s.Inv) :
    s.Step ((s.onQp i fun q k => some (q.dropStray, k)).getD s) (s.qps[i]? = none) := by
  unfold onQp
  cases hq : s.qps[i]? with
  | none => exact (Step.refl h).congr (iff_true_intro rfl).symm
  | some q =>
    have hstep := set_step h hq (InQp.dropStray_step (h.qps q (List.mem_of_getElem? hq)))
    exact hstep.congr (iff_of_false id nofun)

theorem rcv_step (h : s.Inv) (port : RcvDev) (skb : RcvSkb) (clones : List Bool)
    (stale : Option ℕ) :
    s.Step (s.rcv port skb clones stale) (InOk s (.rcv port skb clones stale)) := by
  unfold rcv
  change s.Step _ (noBth skb → ∀ i, stale = some i → s.qps[i]? = none)
  cases noBth skb with
  | false => exact (deliveries_step _ h).congr (iff_true_intro nofun).symm
  | true =>
    cases stale with
    | none => exact (deliveries_step _ h).congr (iff_true_intro fun _ _ hi => by cases hi).symm
    | some i => exact (stray_step h).congr (by simp)

theorem fresh_inv (c : Ctx) (addr : RcvQp) (hreq : c.qp.reqPkts = []) (hresp : c.qp.respPkts = []) :
    (InQp.mk c addr none none {}).Inv ∧ ¬ (InQp.mk c addr none none {}).Spoiled ∧
      (InQp.mk c addr none none {}).box.skbs.size .reqPkts = 0 ∧
      (InQp.mk c addr none none {}).box.due = 0 := by
  refine ⟨⟨⟨Custody.ok_empty, rfl, rfl⟩, ?_, ?_, rfl, ?_, ?_⟩, ?_, rfl, rfl⟩
  · rw [hreq]
    rfl
  · rw [hresp]
    rfl
  · rintro state pkt hs
    cases hs
  · rintro state pkt hs
    cases hs
  · rw [InQp.spoiled_none rfl]
    rintro (hlost | hstrays)
    · exact lt_irrefl 0 hlost
    · exact lt_irrefl 0 hstrays

theorem create_step (h : s.Inv) (c : Ctx) (addr : RcvQp) :
    s.Step { s with qps := s.qps ++ [⟨{ c with qp.reqPkts := [], qp.respPkts := [] }, addr, none,
      none, {}⟩] } True := by
  have hnew := fresh_inv { c with qp.reqPkts := [], qp.respPkts := [] } addr rfl rfl
  generalize InQp.mk { c with qp.reqPkts := [], qp.respPkts := [] } addr none none {} = q at hnew ⊢
  refine ⟨⟨fun q' hq => ?_, ?_, ?_⟩, ?_⟩
  · rcases List.mem_append.1 hq with hq | hq
    · exact h.qps q' hq
    · rw [List.mem_singleton.1 hq]
      exact hnew.1
  · rw [List.map_append, List.sum_append, ← h.req]
    simp [hnew.2.2.1]
  · rw [List.map_append, List.sum_append, ← h.resp]
    simp [hnew.2.2.2]
  · unfold Spoiled
    simp only [List.mem_append, List.mem_singleton, or_and_right, exists_or, exists_eq_left,
      hnew.2.1, not_true, or_false]

/-- What every step keeps, and which steps spoil the accounts. -/
theorem inStep_step {a : InAct} (h : s.Inv) (hstep : inStep s a = some s') :
    s.Step s' (InOk s a) := by
  cases a with
  | create c addr =>
    cases hstep
    exact create_step h c addr
  | rcv port skb clones stale =>
    cases hstep
    exact rcv_step h port skb clones stale
  | compCall i => exact onQp_step h (fun _ _ _ _ _ hq => InQp.compCall_step hq) hstep
  | compPass i =>
    refine onQp_step h (fun q k q' k' hq hinv hpass => ?_) hstep
    have hpass := InQp.compPass_step hinv hpass
    have hok : InOk s (.compPass i) ↔
        ∀ state p, q.comp = some (state, some p) → ¬ Refused state p q.c := by
      refine ⟨fun hall state p => hall q state p hq, fun hall q₁ state p hq₁ => ?_⟩
      cases hq.symm.trans hq₁
      exact hall state p
    rwa [hok]
  | respCall i => exact onQp_step h (fun _ _ _ _ _ hq => InQp.respCall_step hq) hstep
  | respPass i => exact onQp_step h (fun _ _ _ _ _ hq => InQp.respPass_step hq) hstep
  | fail i => exact onQp_step h (fun _ _ _ _ _ hq => InQp.fail_step hq) hstep
  | change i c => exact onQp_step h (fun _ _ _ _ _ hq => InQp.change_step hq) hstep

end InSys

/-! ### Whole runs -/

namespace InSys

variable {s : InSys}

theorem clean_place (h : q.Inv) (hcomp : q.comp = none) (hlost : q.box.skbs.size .lost = 0) {n : ℕ}
    (hn : n ∈ q.box.skbs.place i) : i = .reqPkts ∨ i = .respPkts ∨ i = .freed := by
  have hpos : 0 < q.box.skbs.size i := List.length_pos_of_mem hn
  have hheld := h.held.trans (InQp.inHand_none hcomp)
  cases i with
  | reqPkts => exact Or.inl rfl
  | respPkts => exact Or.inr (Or.inl rfl)
  | freed => exact Or.inr (Or.inr rfl)
  | held | lost => omega

theorem freed_once (h : q.Inv) (hcomp : q.comp = none)
    (hlost : q.box.skbs.size .lost = 0) {n : ℕ} (hn : n < q.box.skbs.next) :
    (q.box.skbs.place .freed).count n =
      if n ∈ q.box.skbs.place .reqPkts ∨ n ∈ q.box.skbs.place .respPkts then 0 else 1 := by
  have hok := h.balanced.skbs
  obtain ⟨i, hi⟩ := (hok.lt_iff n).1 hn
  rw [hok.count_eq hi]
  rcases clean_place h hcomp hlost hi with rfl | rfl | rfl
  · rw [if_neg nofun, if_pos (Or.inl hi)]
  · rw [if_neg nofun, if_pos (Or.inr hi)]
  · rw [if_pos rfl, if_neg]
    rintro (hreq | hresp)
    · exact hok.not_mem (k := .reqPkts) hi nofun hreq
    · exact hok.not_mem (k := .respPkts) hi nofun hresp

theorem Inv.settled (h : s.Inv) (hquiet : s.Quiet) (hclean : ¬ s.Spoiled) : s.Settled := by
  have hnone : ∀ q ∈ s.qps, q.box.skbs.size .lost = 0 ∧ q.box.strays = 0 := by
    intro q hq
    have hno : ¬ q.Spoiled := fun hbad => hclean ⟨q, hq, hbad⟩
    rw [InQp.spoiled_none (hquiet q hq).1] at hno
    omega
  have hdue : ∀ q ∈ s.qps, q.box.due = q.c.qp.respPkts.length := by
    intro q hq
    have hinv := h.qps q hq
    have hheld := hinv.held.trans (InQp.inHand_none (hquiet q hq).1)
    have hresp := hinv.respPkts
    have hlost := (hnone q hq).1
    unfold Inbox.due
    omega
  refine ⟨?_, ?_, fun q hq => ?_, fun q hq => ?_, fun q hq n hn => ?_⟩
  · rw [h.resp, List.map_congr_left hdue]
  · rw [h.req]
    refine congrArg List.sum (List.map_congr_left fun q hq => ?_)
    rw [(h.qps q hq).reqPkts]
  · rw [(h.qps q hq).balanced.reqSkbIn, (h.qps q hq).reqPkts]
  · rw [(h.qps q hq).balanced.refs, hdue q hq, (h.qps q hq).reqPkts, (hnone q hq).2]
    simp
  · exact freed_once (h.qps q hq) (hquiet q hq).1 (hnone q hq).1 hn

theorem Inv.clean_of_settled (h : s.Inv) (hquiet : s.Quiet) (hs : s.Settled) : ¬ s.Spoiled := by
  rintro ⟨q, hq, hbad⟩
  have hinv := h.qps q hq
  have hok := hinv.balanced.skbs
  -- a lost skb exists, but is in no queue and was not freed
  have hlost : q.box.skbs.size .lost = 0 := by
    by_contra hpos
    obtain ⟨n, hn⟩ := List.length_pos_iff_exists_mem.1 (Nat.pos_of_ne_zero hpos)
    have hfreed := hs.freed q hq n (hok.lt_next hn)
    rw [hok.count_eq hn, if_neg nofun, if_neg] at hfreed
    · cases hfreed
    · rintro (hreq | hresp)
      · exact hok.not_mem (k := .reqPkts) hn nofun hreq
      · exact hok.not_mem (k := .respPkts) hn nofun hresp
  have hheld := hinv.held.trans (InQp.inHand_none (hquiet q hq).1)
  have hrefs := hs.refs q hq
  rw [hinv.balanced.refs, hinv.reqPkts] at hrefs
  unfold Inbox.due at hrefs
  rw [InQp.spoiled_none (hquiet q hq).1] at hbad
  have hresp := hinv.respPkts
  omega

theorem Inv.refEach (h : s.Inv) (hclean : ¬ s.Spoiled) (hq : q ∈ s.qps) :
    q.RefEach := by
  have hinv := h.qps q hq
  have hno : ¬ q.Spoiled := fun hbad => hclean ⟨q, hq, hbad⟩
  have hlost : q.box.skbs.size .lost = 0 := Nat.eq_zero_of_not_pos fun hpos => hno (Or.inl hpos)
  have hstrays : q.box.strays = 0 := Nat.eq_zero_of_not_pos fun hpos => hno (Or.inr (Or.inl hpos))
  have hrefs := hinv.balanced.refs
  have hreq := hinv.reqPkts
  have hresp := hinv.respPkts
  have hheld := hinv.held
  unfold InQp.RefEach
  unfold Inbox.due at hrefs
  omega

end InSys

open Trace in
theorem inbound_run (run : Run inStep) (hinit : run.state 0 = {}) (t : ℕ) :
    (run.state t).Inv ∧ ((run.state t).Spoiled ↔
      ¬ ∀ u < t, ∀ a, run.act u = some a → InOk (run.state u) a) := by
  -- induction on the time: a step spoils the accounts exactly if it is not `InOk`
  induction t with
  | zero =>
    rw [hinit]
    refine ⟨⟨fun q hq => absurd hq List.not_mem_nil, rfl, rfl⟩, iff_of_false ?_ ?_⟩
    · rintro ⟨q, hq, -⟩
      exact absurd hq List.not_mem_nil
    · exact not_not.2 fun u hu => absurd hu (Nat.not_lt_zero u)
  | succ t ih =>
    obtain ⟨hinv, hspoiled⟩ := ih
    have hall : (∀ u < t + 1, ∀ a, run.act u = some a → InOk (run.state u) a) ↔
        (∀ u < t, ∀ a, run.act u = some a → InOk (run.state u) a) ∧
          ∀ a, run.act t = some a → InOk (run.state t) a :=
      Nat.forall_lt_succ_right
    rw [hall]
    cases hact : run.act t with
    | none =>
      rw [run.stutter t hact]
      refine ⟨hinv, ?_⟩
      rw [hspoiled, and_iff_left (by rintro a ⟨⟩)]
    | some a =>
      have hstep := InSys.inStep_step hinv (run.taken t a hact)
      refine ⟨hstep.inv, ?_⟩
      rw [hstep.spoiled, hspoiled, not_and_or]
      simp only [Option.some.injEq, forall_eq']

open Trace in
/-- In a run from an empty device, while no response was refused and no buffer without a BTH
came with a stale QP, every queued packet holds one reference until it is processed.  Where no
task runs, the counters are the lengths of the queues, and what was taken off them was freed
once, exactly if this was so up to then. -/
theorem inbound_accounts (run : Run inStep) (hinit : run.state 0 = {}) (t : ℕ) :
    ((∀ u < t, ∀ a, run.act u = some a → InOk (run.state u) a) →
      ∀ q ∈ (run.state t).qps, q.RefEach) ∧
    ((run.state t).Quiet → ((run.state t).Settled ↔
      ∀ u < t, ∀ a, run.act u = some a → InOk (run.state u) a)) := by
  obtain ⟨hinv, hspoiled⟩ := inbound_run run hinit t
  refine ⟨fun hok q hq => ?_, fun hquiet => ⟨fun hs => ?_, fun hok => ?_⟩⟩
  · exact hinv.refEach (fun hbad => hspoiled.1 hbad hok) hq
  · exact not_not.1 fun hno => hinv.clean_of_settled hquiet hs (hspoiled.2 hno)
  · exact hinv.settled hquiet fun hbad => hspoiled.1 hbad hok

/-- An RC QP that may retry once after an RNR NAK. -/
def inboundQp : Ctx :=
  { qp := { type := .rc, sq := ⟨[], List.replicate 4 { ibwr := { opcode := .send } }⟩,
            rq := ⟨[], [{}]⟩, req := { state := .ready }, comp := { rnrRetry := 1 } } }

/-- It has sent a request. -/
def inboundSent : Ctx :=
  ((rxeRequester (rxePostSend inboundQp [{ wrId := 5, opcode := .send }]).2).map (·.2)).getD
    inboundQp

/-- An acknowledgement with PSN 0 for QP 2 over Ethernet, with a given syndrome. -/
def ackHdr (syndrome : UInt8) : ℕ → UInt8
  | 0 => 0x60
  | 5 => 20
  | 6 => 0x1b
  | 23 => 2
  | 39 => 3
  | 40 => 0x11
  | 42 => 0xff
  | 43 => 0xff
  | 47 => 2
  | 52 => syndrome
  | 55 => 1
  | _ => 0

/-- The two special QPs and the RC QP are created, the RC QP sends a request, the answer comes,
and the completer takes it. -/
def inboundActs (syndrome : UInt8) : List InAct :=
  [.create { inboundQp with qp.type := .smi } { type := .smi },
    .create { inboundQp with qp.type := .gsi } { type := .gsi },
    .create inboundQp { type := .rc, dgidInterface := 2 },
    .change 2 (rxePostSend inboundQp [{ wrId := 5, opcode := .send }]).2,
    .change 2 inboundSent,
    .rcv { qp := fun _ => none, guidTbl := fun _ => 3 } ⟨.net, ackHdr syndrome, 60, 1⟩ [] none,
    .compCall 2] ++ List.replicate 10 (.compPass 2)

open Trace in
/-- The answer is an RNR NAK.  When the completer has returned, `resp_skb_in` counts a response,
the QP has a reference for it, and no queue has it. -/
theorem inbound_lost : ∃ run : Run inStep, run.state 0 = {} ∧ (run.state 17).Quiet ∧
    (run.state 17).skbIn.resp = 1 ∧
    (run.state 17).qps.map (fun q => (q.box.refs, q.c.qp.respPkts.length, q.c.qp.reqPkts.length)) =
      [(0, 0, 0), (0, 0, 0), (1, 0, 0)] := by
  refine ⟨Run.ofActs inStep {} (inboundActs 0x20), rfl, ?_, ?_, ?_⟩
  · unfold InSys.Quiet
    decide +kernel
  · decide +kernel
  · decide +kernel

open Trace in
/-- The answer is an acknowledgement: when the completer has returned, the accounts are right,
so nothing was refused, and every packet holds its reference. -/
theorem inbound_accounts_ack : ∃ run : Run inStep, run.state 0 = {} ∧
    (run.state 17).qps.map (fun q => q.box.skbs.next) = [0, 0, 1] ∧ (run.state 17).Settled ∧
    ∀ q ∈ (run.state 17).qps, q.RefEach := by
  have hquiet : ((Run.ofActs inStep {} (inboundActs 0x1f)).state 17).Quiet := by
    unfold InSys.Quiet
    decide +kernel
  have hsettled : ((Run.ofActs inStep {} (inboundActs 0x1f)).state 17).Settled :=
    ⟨by decide +kernel, by decide +kernel, by decide +kernel, by decide +kernel,
      by decide +kernel⟩
  obtain ⟨heach, hiff⟩ := inbound_accounts (Run.ofActs inStep {} (inboundActs 0x1f)) rfl 17
  exact ⟨_, rfl, by decide +kernel, hsettled, heach ((hiff hquiet).1 hsettled)⟩

end Rxe
