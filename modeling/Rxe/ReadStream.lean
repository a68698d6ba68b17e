/-
The responses to an RDMA READ.

A read is answered by one response in each call of `rxe_responder`; between the calls
`resp.res` says that it is under way, and the request stays at the head of the queue.  Where a
response cannot be allocated, `read_reply` leaves through RESPST_ERR_RNR: the request is taken
off the queue, but `resp.res` stays set, and the next request is taken for the one that is being
answered.

* `Serves` — how far a read has been answered;
* `readReply_serves` — what one response does;
* `readRule`, `reads_reach` — the invariant of the passes and of the runs;
* `read_reply_own_request` — as long as the allocations succeed, the responder answers only the
  request at hand, from its own PSN on, with a stream that begins with FIRST or ONLY, and the
  expected PSN stays until the stream is complete;
* `read_reply_other_request` — after a failed allocation a SEND is answered with the last
  response of the read.
-/
import Rxe.Msn
import Rxe.Region
import Rxe.RespReplay

namespace Rxe

open Framing Trace

/-! ### Streams of responses -/

/-- What the peer sees of a response to a read. -/
structure ReadResp where
  opcode : Opcode
  psn : ℕ
  payload : List UInt8
  deriving DecidableEq, Repr

def readOpcode : Place → Opcode
  | .only => .rcRdmaReadResponseOnly
  | .first => .rcRdmaReadResponseFirst
  | .middle => .rcRdmaReadResponseMiddle
  | .last => .rcRdmaReadResponseLast

def Event.readResp? : Event → Option ReadResp
  | .sendResp ack =>
    match ack.opcode with
    | .rcRdmaReadResponseOnly | .rcRdmaReadResponseFirst | .rcRdmaReadResponseMiddle
    | .rcRdmaReadResponseLast => some ⟨ack.opcode, ack.psn, ack.payload⟩
    | _ => none
  | _ => none

/-- Opcode, PSN and length of a response. -/
def ReadResp.shape (resp : ReadResp) : Opcode × ℕ × ℕ :=
  (resp.opcode, resp.psn, resp.payload.length)

/-- The responses to reads that were sent. -/
def readResps (es : List Event) : List ReadResp := es.filterMap Event.readResp?

/-- Packets with the PSNs from `psn` on. -/
def numbered (psn : ℕ) (l : List (Place × List UInt8)) : List ReadResp :=
  l.mapIdx fun j x => ⟨readOpcode x.1, psnMask (psn + j), x.2⟩

theorem numbered_concat (psn : ℕ) (l : List (Place × List UInt8)) (x : Place × List UInt8) :
    numbered psn (l ++ [x]) =
      numbered psn l ++ [⟨readOpcode x.1, psnMask (psn + l.length), x.2⟩] :=
  List.mapIdx_concat

theorem readResps_concat (es : List Event) {ack : Pkt} {place : Place}
    (h : ack.opcode = readOpcode place) :
    readResps (es ++ [.sendResp ack]) =
      readResps es ++ [⟨readOpcode place, ack.psn, ack.payload⟩] := by
  unfold readResps
  rw [List.filterMap_append]
  refine congrArg (_ ++ ·) ?_
  have hsome : (Event.sendResp ack).readResp? = some ⟨readOpcode place, ack.psn, ack.payload⟩ := by
    unfold Event.readResp?
    dsimp only
    rw [h]
    cases place <;> rfl
  rw [List.filterMap_cons_some hsome]
  rfl

theorem readResps_copyFrom (c : Ctx) (r : RespRes) :
    readResps (copyFrom c r).out = readResps c.out := by
  rcases copyFrom_cases c r with h | h <;> rw [h]
  exact (List.filterMap_append ..).trans (List.append_nil _)

theorem readRespOpcode_place (state : RdatmResState) (fits : Bool) :
    readRespOpcode state fits = readOpcode (.of (state = .new) fits) := by
  cases state <;> cases fits <;> rfl

/-- The bytes that a resource gives at an address; those of the new skb where the copy fails. -/
def regionData (dev : Dev) (ptr : ResPtr) (va n : ℕ) : List UInt8 :=
  let fresh := (List.range n).map dev.fresh
  match ptr.region.bind dev.mem with
  | none => fresh
  | some mem =>
    match rxeMemCopyOut dev mem va n with
    | .error _ => fresh
    | .ok data => data

theorem readData_eq (c : Ctx) (r : RespRes) (n : ℕ) :
    readData c r n = regionData c.dev r.ptr r.va n := by
  rfl

theorem regionData_length (dev : Dev) (ptr : ResPtr) (va n : ℕ) :
    (regionData dev ptr va n).length = n := by
  unfold regionData
  dsimp only
  split
  · rw [List.length_map, List.length_range]
  · next mem _ =>
    split
    · rw [List.length_map, List.length_range]
    · next data hcopy =>
      unfold rxeMemCopyOut at hcopy
      split at hcopy
      · cases hcopy
      · next haddrs =>
        cases hcopy
        rw [List.length_map]
        exact memAddrs_length haddrs

/-! ### A read under way -/

/-- The read `p` has been answered with the pieces `ps`, `before` are the responses to earlier
ones; `new` tells whether the stream begins with FIRST or ONLY. -/
structure Serves (c : Ctx) (p : Pkt) (i : ℕ) (r : RespRes) (new : Bool) (before : List ReadResp)
    (ps : List (List UInt8)) : Prop where
  read : p.mask.read
  psn : psnCompare p.psn c.qp.resp.psn ≤ 0
  begins : psnCompare p.psn c.qp.resp.psn = 0 → new
  res : c.qp.resp.res = some i
  resource : c.qp.resp.resources[i]? = some r
  curPsn : psnMask r.curPsn = psnMask (p.psn + ps.length)
  state : (r.state = .new) ↔ new ∧ ps = []
  resid : r.resid + ps.length * c.qp.mtu = p.reth.len
  more : ps = [] ∨ 0 < r.resid
  full : ∀ x ∈ ps, x.length = c.qp.mtu
  resps : readResps c.out = before ++ numbered p.psn (opened new ps)

/-- A read is under way. -/
def Serving (c : Ctx) (p : Pkt) : Prop := ∃ i r new before ps, Serves c p i r new before ps

/-- A read is about to be answered for the first time. -/
structure Starting (c : Ctx) (p : Pkt) : Prop where
  read : p.mask.read
  psn : psnCompare p.psn c.qp.resp.psn = 0
  res : c.qp.resp.res = none
  room : c.qp.resp.resHead < c.qp.resp.resources.length
  resid : c.qp.resp.resid = p.reth.len

section Reply

variable {c : Ctx} {p : Pkt} {i : ℕ} {r : RespRes} {new : Bool} {before : List ReadResp}
  {ps : List (List UInt8)}

theorem initReadRes_keeps (c : Ctx) (p : Pkt) :
    (initReadRes c p).skb = c.skb ∧ (initReadRes c p).qp.mtu = c.qp.mtu ∧
      (initReadRes c p).qp.resp.psn = c.qp.resp.psn := by
  dsimp only [initReadRes, rxeAdvanceRespResource, setRes]
  exact ⟨rfl, rfl, rfl⟩

theorem readReply_fresh (p : Pkt) (hres : c.qp.resp.res = none) :
    readReply c p = readReply (initReadRes c p) p := by
  have hsome : (initReadRes c p).qp.resp.res.isNone = false := by
    obtain ⟨head, hc⟩ := initReadRes_frame c p
    rw [hc]
    rfl
  unfold readReply
  dsimp only
  rw [hres, hsome, if_pos Option.isNone_none, if_neg Bool.false_ne_true]

theorem Starting.serves (h : Starting c p) :
    ∃ r₀, Serves (initReadRes c p) p c.qp.resp.resHead (RespRes.startRead c.qp p r₀) true
      (readResps c.out) [] := by
  obtain ⟨r₀, hr₀⟩ : ∃ r₀, c.qp.resp.resources[c.qp.resp.resHead]? = some r₀ :=
    ⟨_, List.getElem?_eq_getElem h.room⟩
  refine ⟨r₀, h.read, ?_, ?_, rfl, ?_, rfl, ?_, ?_, Or.inl rfl, nofun, ?_⟩
  · rw [(initReadRes_keeps c p).2.2]
    exact le_of_eq h.psn
  · exact fun _ => rfl
  · rw [initReadRes_resources, List.getElem?_modify, hr₀]
    simp
  · exact ⟨fun _ => ⟨rfl, rfl⟩, fun _ => rfl⟩
  · show c.qp.resp.resid + 0 * _ = _
    rw [Nat.zero_mul, Nat.add_zero, h.resid]
  · rw [initReadRes_out]
    exact (List.append_nil _).symm

theorem Serves.readReply_eq (h : Serves c p i r new before ps) (q : Pkt) :
    readReply c q = readReplyRes c q i r := by
  unfold readReply
  rw [h.res]
  dsimp only [Option.isNone_some]
  rw [if_neg Bool.false_ne_true, h.res]
  dsimp only
  rw [h.resource]

/-- One response: the stream goes on, or it is complete. -/
theorem readReply_serves (h : Serves c p i r new before ps) (hroom : c.skbRoom)
    (hsmall : p.reth.len < 2 ^ 31) (hmtu : c.qp.mtu < 2 ^ 31) :
    ∃ x c', x = readData c r (min r.resid c.qp.mtu) ∧ (c.skb = [] → c'.skb = []) ∧
      (∃ ack, c'.out = (copyFrom c r).out ++ [.sendResp ack]) ∧
      ((readReply c p = (.done, c') ∧ (ps.length + 1) * c.qp.mtu < p.reth.len ∧
        c'.qp.resp.psn = c.qp.resp.psn ∧
        ∃ r', Serves c' p i r' new before (ps ++ [x]) ∧ r' = r.started.advance c.qp.mtu) ∨
      (readReply c p = (.cleanup, c') ∧ c'.qp.resp.res = none ∧
        c'.qp.resp.psn = psnMask (p.psn + (ps ++ [x]).length) ∧
        Cut c.qp.mtu (ps.flatten ++ x) (ps ++ [x]) ∧ (ps.flatten ++ x).length = p.reth.len ∧
        readResps c'.out = before ++ numbered p.psn (framed new (ps ++ [x])))) := by
  have hresid := h.resid
  obtain ⟨skb, ack, hskb, hop, hpsn, hdata, hreply⟩ := readReplyRes_room p i hroom
    (show r.resid < 2 ^ 31 by omega) hmtu
  rw [h.readReply_eq, hreply]
  have hlen : (readData c r (min r.resid c.qp.mtu)).length = min r.resid c.qp.mtu :=
    regionData_length ..
  have hstart : decide (r.state = .new) = (new && ps.isEmpty) := by
    rw [Bool.eq_iff_iff, decide_eq_true_iff, Bool.and_eq_true_iff, List.isEmpty_iff]
    exact h.state
  rw [readRespOpcode_place, hstart] at hop
  rw [h.curPsn] at hpsn
  -- the log after the response, which has the place that its opcode says
  have hsent : readResps (replied { c with skb } i (min r.resid c.qp.mtu) r ack).out =
      before ++ numbered p.psn (opened new ps ++
        [(.of (new && ps.isEmpty) (r.resid ≤ c.qp.mtu), readData c r (min r.resid c.qp.mtu))]) := by
    rw [numbered_concat, length_opened, ← List.append_assoc, ← h.resps, ← hpsn, ← hdata]
    refine (readResps_concat
      (copyFrom (setRes { c with skb } i RespRes.started) r).out hop).trans ?_
    rw [readResps_copyFrom]
    rfl
  have hnext : psnMask (r.curPsn + 1) = psnMask (p.psn + (ps.length + 1)) := by
    have hcur := h.curPsn
    unfold psnMask psnMod at hcur ⊢
    omega
  -- a full packet with data left behind it, or the last one
  by_cases hlast : min r.resid c.qp.mtu < r.resid
  · have hmin : min r.resid c.qp.mtu = c.qp.mtu := by omega
    rw [if_pos hlast]
    refine ⟨_, _, rfl, hskb, ⟨_, rfl⟩, Or.inl ⟨rfl, by rw [Nat.succ_mul]; omega, rfl,
      r.started.advance c.qp.mtu,
      ⟨h.read, h.psn, h.begins, h.res, ?_, ?_, ?_, ?_, Or.inr ?_, ?_, ?_⟩, rfl⟩⟩
    · show ((c.qp.resp.resources.modify i _).modify i _)[i]? = _
      simp [h.resource, hmin]
    · rw [List.length_append, List.length_singleton, ← hnext]
      exact Nat.mod_mod _ _
    · exact ⟨nofun, fun hcontra => absurd hcontra.2
        (List.append_ne_nil_of_right_ne_nil _ (List.cons_ne_nil _ _))⟩
    · show r.resid - c.qp.mtu + (ps ++ [_]).length * c.qp.mtu = p.reth.len
      rw [List.length_append, List.length_singleton, Nat.succ_mul]
      omega
    · show 0 < r.resid - c.qp.mtu
      omega
    · intro y hy
      rcases List.mem_append.1 hy with hy | hy
      · exact h.full y hy
      · rw [List.mem_singleton.1 hy, hlen]
        exact hmin
    · rw [opened_concat, hsent, decide_eq_false (by omega)]
  · have hmin : min r.resid c.qp.mtu = r.resid := by omega
    rw [if_neg hlast]
    refine ⟨_, _, rfl, hskb, ⟨_, rfl⟩, Or.inr ⟨rfl, rfl, ?_,
      Cut.of_full h.full (by rw [hlen]; omega) ?_, ?_, ?_⟩⟩
    · rw [List.length_append, List.length_singleton]
      exact hnext
    · intro hne hnil
      have hpos := h.more.resolve_left hne
      rw [hnil, List.length_nil] at hlen
      omega
    · rw [List.length_append, length_flatten_full h.full, hlen]
      omega
    · rw [framed_concat]
      show readResps (replied { c with skb } i (min r.resid c.qp.mtu) r ack).out = _
      rw [hsent, decide_eq_true (show r.resid ≤ c.qp.mtu by omega)]

end Reply

/-! ### The invariant -/

/-- What always holds of a QP that is set up: its MTU is not negative as an `int`, and the
resources are there. -/
structure RingInv (c : Ctx) : Prop where
  mtu : c.qp.mtu < 2 ^ 31
  state : c.qp.resp.state ≠ .reset
  ring : 0 < c.qp.attr.maxRdAtomic →
    c.qp.resp.resHead < c.qp.attr.maxRdAtomic ∧
      c.qp.attr.maxRdAtomic ≤ c.qp.resp.resources.length

/-- No read is under way, and the request at hand is the first in the queue. -/
structure NoRead (pkt : Option Pkt) (c : Ctx) : Prop where
  res : c.qp.resp.res = none
  head : ∀ p ∈ pkt, c.qp.reqPkts.head? = some p

/-- No read is under way, or the first request in the queue is. -/
def Between (c : Ctx) : Prop :=
  c.qp.resp.res = none ∨ ∃ p, c.qp.reqPkts.head? = some p ∧ Serving c p

/-- What is known in a state of the responder. -/
def ReplyAt (state : RespState) (pkt : Option Pkt) (c : Ctx) : Prop :=
  match state with
  | .getReq | .done | .exit => Between c
  | .duplicateRequest => NoRead pkt c ∧ ∀ p ∈ pkt, psnCompare p.psn c.qp.resp.psn < 0
  | .chkLength | .chkRkey => NoRead pkt c ∧ ∀ p ∈ pkt, p.mask.read → 0 < c.qp.attr.maxRdAtomic
  | .execute => NoRead pkt c ∧
      ∀ p ∈ pkt, p.mask.read → 0 < c.qp.attr.maxRdAtomic ∧ c.qp.resp.resid = p.reth.len
  | .readReply => ∃ p, pkt = some p ∧ c.qp.reqPkts.head? = some p ∧ (Starting c p ∨ Serving c p)
  | .error | .errCqOverflow => True
  | .reset => False
  | _ => NoRead pkt c

/-- The invariant of the passes; nothing is answered in the error state. -/
structure ReplyInv (state : RespState) (pkt : Option Pkt) (c : Ctx) : Prop where
  ring : RingInv c
  now : c.qp.resp.state = .error ∨ ReplyAt state pkt c

/-- The invariant between two calls. -/
structure ReplyIdle (c : Ctx) : Prop where
  ring : RingInv c
  now : c.qp.resp.state = .error ∨ Between c

section Passes

variable {c : Ctx} {p : Pkt} {pkt : Option Pkt}

theorem getReq_read (h : ReplyInv .getReq pkt c) :
    ReplyInv (getReq c pkt).1 (getReq c pkt).2.1 (getReq c pkt).2.2 := by
  unfold getReq
  split
  · next herr =>
    split
    · exact ⟨h.ring, Or.inl herr⟩
    · exact ⟨{ h.ring with }, Or.inl herr⟩
  · next herr =>
    have hnow : Between c := h.now.resolve_left herr
    split
    · exact ⟨h.ring, Or.inr hnow⟩
    · next q pkts hq =>
      have hhead : c.qp.reqPkts.head? = some q := by rw [hq]; rfl
      dsimp only
      split
      · next hres =>
        refine ⟨h.ring, Or.inr ⟨q, rfl, hhead, Or.inr ?_⟩⟩
        rcases hnow with hnone | ⟨p, hp, hserve⟩
        · rw [hnone] at hres
          cases hres
        · cases hhead.symm.trans hp
          exact hserve
      · next hres =>
        refine ⟨h.ring, Or.inr ⟨by simpa using hres, ?_⟩⟩
        rintro p ⟨⟩
        exact hhead

theorem respCheckPsn_read (hrc : c.qp.type = .rc) (h : ReplyInv .chkPsn (some p) c) :
    ReplyInv (respCheckPsn c p).1 (some p) (respCheckPsn c p).2 := by
  have hnow : c.qp.resp.state = .error ∨ NoRead (some p) c := h.now
  unfold respCheckPsn
  rw [hrc]
  dsimp only
  split
  · split
    · exact ⟨h.ring, hnow⟩
    · exact ⟨{ h.ring with }, hnow.imp_right fun hno => { hno with }⟩
  · split
    · next hneg =>
      refine ⟨h.ring, hnow.imp_right fun hno => ⟨hno, ?_⟩⟩
      rintro q ⟨⟩
      exact hneg
    · exact ⟨{ h.ring with }, hnow.imp_right fun hno => { hno with }⟩

theorem checkOpSeq_read (h : ReplyInv .chkOpSeq (some p) c) :
    ReplyInv (checkOpSeq c p).1 (some p) (checkOpSeq c p).2 := by
  have hnow : c.qp.resp.state = .error ∨ NoRead (some p) c := h.now
  rcases checkOpSeq_cases c p with heq | ⟨-, heq⟩ | ⟨-, heq⟩ | ⟨-, heq⟩ | ⟨-, heq⟩ <;> rw [heq]
  iterate 4 exact ⟨h.ring, hnow⟩
  exact ⟨{ h.ring with }, hnow.imp_right fun hno => { hno with }⟩

theorem checkRkey_read (h : ReplyInv .chkRkey (some p) c) :
    ReplyInv (checkRkey c p).1 (some p) (checkRkey c p).2 := by
  obtain ⟨va, rkey, resid, hset⟩ := setTarget_frame c p
  have hlen : p.mask.read → resid = p.reth.len := by
    intro hread
    have htarget : (setTarget c p).qp.resp.resid = p.reth.len := by
      unfold setTarget
      rw [hread, Bool.true_or, if_pos rfl, if_pos (Pkt.mask_of_read hread).1]
    rw [hset] at htarget
    exact htarget
  have hbad : c.qp.resp.state = .error ∨ NoRead (some p) c := h.now.imp_right fun hno => hno.1
  rcases checkRkey_outcome c p with ⟨hnone, heq⟩ | ⟨-, ⟨state, hstate, heq⟩ | ⟨m, heq, -⟩⟩ <;>
    rw [heq]
  · refine ⟨h.ring, h.now.imp_right fun hno => ⟨hno.1, ?_⟩⟩
    rintro q ⟨⟩ hread
    rw [hread] at hnone
    cases hnone
  · rw [hset]
    rcases hstate with rfl | rfl <;> exact ⟨{ h.ring with }, hbad.imp_right fun hno => { hno with }⟩
  · rw [hset]
    refine ⟨{ h.ring with }, h.now.imp_right fun hno => ⟨{ hno.1 with }, ?_⟩⟩
    rintro q ⟨⟩ hread
    exact ⟨hno.2 p rfl hread, hlen hread⟩

theorem execute_read (hexp : ExpectedInv .execute (some p) c) (h : ReplyInv .execute (some p) c) :
    ReplyInv (execute c p).1 (some p) (execute c p).2 := by
  rcases execute_cases c p with
    ⟨hread, heq⟩ | ⟨_, _, _, _, _, _, d, rfl, ⟨err, hmem, heq⟩ | heq⟩ <;>
    rw [heq]
  · refine ⟨{ h.ring with }, h.now.imp_right fun hno => ⟨p, rfl, hno.1.head p rfl, Or.inl ?_⟩⟩
    obtain ⟨hmax, hresid⟩ := hno.2 p rfl hread
    obtain ⟨hlt, hle⟩ := h.ring.ring hmax
    exact ⟨hread, hexp.psn p rfl, hno.1.res, lt_of_lt_of_le hlt hle, hresid⟩
  · rcases hmem with rfl | rfl | rfl | rfl <;>
      exact ⟨{ h.ring with }, h.now.imp_right fun hno => { hno.1 with }⟩
  · rcases executeDone_next _ p with ⟨-, hs⟩ | ⟨-, hs | hs⟩ <;> rw [hs] <;>
      exact ⟨{ h.ring with }, h.now.imp_right fun hno => { hno.1 with }⟩

/-! The resources. -/

theorem RingInv.setRes (h : RingInv c) (i : ℕ) (f : RespRes → RespRes) :
    RingInv (setRes c i f) where
  mtu := h.mtu
  state := h.state
  ring hmax := by
    refine (h.ring hmax).imp_right fun hle => ?_
    show _ ≤ (c.qp.resp.resources.modify i f).length
    rw [List.length_modify]
    exact hle

theorem RingInv.advance (h : RingInv c) : RingInv (rxeAdvanceRespResource c) where
  mtu := h.mtu
  state := h.state
  ring hmax := by
    obtain ⟨hlt, hle⟩ := h.ring hmax
    refine ⟨?_, hle⟩
    show (if c.qp.resp.resHead + 1 = c.qp.attr.maxRdAtomic then 0 else c.qp.resp.resHead + 1) <
      c.qp.attr.maxRdAtomic
    split
    · exact hmax
    · omega

theorem RingInv.keepAtomicAck (h : RingInv c) (ack : Pkt) : RingInv (keepAtomicAck c ack) :=
  (h.setRes _ _).advance

theorem RingInv.readReply (h : RingInv c) (p : Pkt) : RingInv (readReply c p).2 := by
  have hstart : RingInv (if c.qp.resp.res.isNone then initReadRes c p else c) := by
    split
    · exact { (h.setRes c.qp.resp.resHead (RespRes.startRead c.qp p)).advance with }
    · exact h
  unfold Rxe.readReply
  dsimp only
  generalize (if c.qp.resp.res.isNone then initReadRes c p else c) = d at hstart
  split
  · exact hstart
  · next i _ =>
    split
    · exact hstart
    · next res _ =>
      have hring := hstart.setRes i RespRes.started
      obtain ⟨skb, es, -, -, hc | ⟨n, hc | hc⟩⟩ := readReplyRes_cases d p i res <;> rw [hc]
      · exact { hring with }
      · exact { hring.setRes i (RespRes.advance n) with }
      · exact { hring.setRes i (RespRes.advance n) with }

theorem readReply_read (h : ReplyInv .readReply (some p) c) (hroom : c.skbRoom)
    (hsmall : p.reth.len < 2 ^ 31) : ReplyInv (readReply c p).1 (some p) (readReply c p).2 := by
  refine ⟨h.ring.readReply p, ?_⟩
  obtain ⟨-, psn, opcode, resources, resHead, mr, res, skb, es, -, hc⟩ := readReply_frame c p
  have hstate : (readReply c p).2.qp.resp.state = c.qp.resp.state := by rw [hc]
  have hpkts : (readReply c p).2.qp.reqPkts = c.qp.reqPkts := by rw [hc]
  rw [hstate]
  refine h.now.imp_right ?_
  rintro ⟨q, ⟨⟩, hhead, hread⟩
  rw [← hpkts] at hhead
  -- from a resource in use on, new reads and replays go the same way
  have hgo : ∀ {d : Ctx} {i r new before ps}, readReply c p = readReply d p → d.skbRoom →
      d.qp.mtu < 2 ^ 31 → Serves d p i r new before ps →
      ReplyAt (readReply c p).1 (some p) (readReply c p).2 := by
    intro d i r new before ps heq hroom hmtu hserve
    rw [heq] at hhead ⊢
    obtain ⟨x, d', -, -, -, ⟨hreply, -, -, r', hserve', -⟩ | ⟨hreply, hres, -⟩⟩ :=
      readReply_serves hserve hroom hsmall hmtu
    · rw [hreply] at hhead ⊢
      exact Or.inr ⟨p, hhead, _, _, _, _, _, hserve'⟩
    · rw [hreply] at hhead ⊢
      refine ⟨hres, ?_⟩
      rintro q ⟨⟩
      exact hhead
  rcases hread with hstart | ⟨i, r, new, before, ps, hserve⟩
  · obtain ⟨r, hserve⟩ := hstart.serves
    exact hgo (readReply_fresh p hstart.res)
      (by unfold Ctx.skbRoom; rw [(initReadRes_keeps c p).1]; exact hroom)
      ((initReadRes_keeps c p).2.1.trans_lt h.ring.mtu) hserve
  · exact hgo rfl hroom h.ring.mtu hserve

theorem duplicateRequest_read (h : ReplyInv .duplicateRequest (some p) c) :
    ReplyInv (duplicateRequest c p).1 (some p) (duplicateRequest c p).2 := by
  by_cases hread : p.mask.read
  · rw [duplicateRequest_of_read c hread]
    rcases duplicateRead_cases c p with hc | ⟨i, res, -, hres, -, hc⟩ <;> rw [hc]
    · exact ⟨h.ring, h.now.imp_right fun hno => hno.1⟩
    · refine ⟨{ h.ring.setRes i (replayRes p) with }, h.now.imp_right fun hno => ?_⟩
      have hneg := hno.2 p rfl
      refine ⟨p, rfl, hno.1.head p rfl, Or.inr ⟨i, replayRes p res, p.psn = res.firstPsn,
        readResps c.out, [], hread, le_of_lt hneg, fun heq => ?_, rfl, ?_, rfl, ?_, ?_, Or.inl rfl,
        nofun, ?_⟩⟩
      · exact absurd heq (ne_of_lt hneg)
      · show (c.qp.resp.resources.modify i (replayRes p))[i]? = _
        simp [hres]
      · show (if p.psn = res.firstPsn then RdatmResState.new else .replay) = .new ↔ _
        by_cases hfirst : p.psn = res.firstPsn <;> simp [hfirst]
      · show p.reth.len + 0 * c.qp.mtu = p.reth.len
        rw [Nat.zero_mul, Nat.add_zero]
      · exact (List.append_nil _).symm
  · obtain ⟨hs, ⟨skb, es, -, hc⟩ | ⟨skb, es, i, ack, -, hc⟩⟩ :=
      duplicateRequest_frame c p (by simpa using hread) <;> rw [hs, hc]
    · exact ⟨{ h.ring with }, h.now.imp_right fun hno => { hno.1 with }⟩
    · exact ⟨{ h.ring.setRes i _ with }, h.now.imp_right fun hno => { hno.1 with }⟩

/-- The next response can be allocated; a length of `2 ^ 31` bytes or more is negative for
`prepare_ack_packet`, and what it then builds is not a response. -/
def RespCfg.replyRoom (s : RespCfg) : Prop :=
  s.state = .readReply → s.c.skbRoom ∧ ∀ p ∈ s.pkt, p.reth.len < 2 ^ 31

theorem readQuiet : QuietRule ReplyInv where
  settle := by
    intro state state' pkt c c' hs hs' hq h
    have hnow : c.qp.resp.state = .error ∨ NoRead pkt c := by
      have hinv := h.now
      cases state <;> first | exact hinv | cases hs
    rw [hq]
    refine ⟨{ h.ring with }, hnow.imp_right fun hno => ?_⟩
    cases state' <;> first | exact { hno with } | exact Or.inl hno.res | trivial
  opValid h := ⟨h.ring, h.now⟩
  resource hq herr hread h := by
    rw [hq]
    exact ⟨{ h.ring with }, Or.inr ⟨{ h.now.resolve_left herr with }, hread⟩⟩
  flush hq herr h := by
    rw [hq]
    exact ⟨{ h.ring with }, Or.inl herr⟩

theorem readRule : PassRule (fun (_ : Unit) _ => ())
    (fun _ state pkt c => (ExpectedInv state pkt c ∧ RespCfg.replyRoom ⟨state, pkt, c⟩) ∧
      ReplyInv state pkt c)
    (fun _ => ReplyInv) fun _ => ReplyIdle where
  getReq _ _ _ h := getReq_read h.2
  chkPsn _ _ _ h := respCheckPsn_read h.1.1.rc h.2
  chkOpSeq _ _ _ h := checkOpSeq_read h.2
  chkOpValid _ _ _ h := readQuiet.chkOpValid h.2
  chkResource _ _ _ h := readQuiet.chkResource h.2
  chkLength _ _ _ h := ⟨h.2.ring, h.2.now⟩
  chkRkey _ _ _ h := checkRkey_read h.2
  execute _ _ _ h := execute_read h.1.1 h.2
  complete _ _ _ h := readQuiet.complete h.2
  readReply _ p _ h := readReply_read h.2 (h.1.2 rfl).1 ((h.1.2 rfl).2 p rfl)
  acknowledge _ p c h := by
    have hnow : c.qp.resp.state = .error ∨ NoRead (some p) c := h.2.now
    rcases acknowledge_frame c p with ⟨skb, es, -, hc⟩ | ⟨skb, es, ack, -, hc⟩ <;> rw [hc]
    · exact ⟨{ h.2.ring with }, hnow.imp_right fun hno => { hno with }⟩
    · exact ⟨{ h.2.ring.keepAtomicAck ack with }, hnow.imp_right fun hno => { hno with }⟩
  cleanup _ pkt c h := by
    have hnow : c.qp.resp.state = .error ∨ NoRead pkt c := h.2.now
    exact ⟨{ h.2.ring with }, hnow.imp_right fun hno => Or.inl hno.res⟩
  duplicateRequest _ _ _ h := duplicateRequest_read h.2
  errPsn _ _ _ h := readQuiet.errPsn h.2
  errAc _ _ _ _ _ _ hclass h := readQuiet.errAc hclass h.2
  -- class D1E is for unreliable QPs
  errD1e _ _ _ h := h.1.1.psn.elim
  errRnr _ _ _ h := readQuiet.errRnr h.2
  errRkey _ _ _ h := readQuiet.errRkey h.2
  errLength _ _ _ h := readQuiet.errLength h.2
  toError _ _ _ _ _ h := ⟨h.2.ring, Or.inr trivial⟩
  leave _ state pkt c hstate h := by
    refine ⟨h.2.ring, h.2.now.imp_right fun hnow => ?_⟩
    rcases hstate with ⟨-, rfl | rfl⟩ | ⟨hneeds, rfl⟩
    · exact hnow
    · exact hnow
    · -- without a packet no state that needs one is reached while a read is under way
      cases state <;> first
        | exact Or.inl hnow.1
        | exact Or.inl hnow.1.1
        | (obtain ⟨p, hp, -⟩ := hnow; exact nomatch hp)
        | cases hneeds
  error _ _ c h := by
    obtain ⟨req, sq, respPkts, cq, es, -, hc⟩ :=
      rxeQpError_frame { c with qp.resp.gotoError := false }
    rw [hc]
    exact ⟨⟨h.2.ring.mtu, nofun, h.2.ring.ring⟩, Or.inl rfl⟩
  reset _ _ c h := ⟨{ h.2.ring with }, h.2.now.imp_right fun hnow => hnow.elim⟩

end Passes

/-! ### Runs -/

/-- The allocations of `read_reply` succeed. -/
def ReadRoom (sys : RespSys) : RespAct → Prop
  | .pass => ∀ s, sys = .busy s → s.replyRoom
  | _ => True

/-- An RC responder that is set up and not answering a read. -/
structure ReplyStart (c : Ctx) : Prop extends RingInv c where
  rc : c.qp.type = .rc
  noRes : c.qp.resp.res = none

theorem readResps_append_silent (es : List Event) {es' : List Event}
    (h : es' = [] ∨ es' = [.runResp]) : readResps (es ++ es') = readResps es := by
  unfold readResps
  rw [List.filterMap_append]
  rcases h with rfl | rfl <;> exact List.append_nil _

theorem change_read {state : RespState} {pkt : Option Pkt} {c : Ctx} {a : RespAct} {f : Ctx → Ctx}
    (hf : a.change = some f) (h : ReplyInv state pkt c) : ReplyInv state pkt (f c) := by
  rcases RespAct.change_frame hf c with hc | ⟨pkts, rq, srq, dev, skb, cq, es, hes, hc⟩
  · obtain ⟨req, sq, respPkts, cq, es, -, herr⟩ := rxeQpError_frame c
    rw [hc, herr]
    exact ⟨⟨h.ring.mtu, nofun, h.ring.ring⟩, Or.inl rfl⟩
  · rw [hc]
    refine ⟨{ h.ring with }, h.now.imp_right fun hnow => ?_⟩
    -- requests arrive behind the one that is served
    have hhead : ∀ p, c.qp.reqPkts.head? = some p → (c.qp.reqPkts ++ pkts).head? = some p := by
      intro p hp
      rw [List.head?_append, hp]
      rfl
    have hno : NoRead pkt c → NoRead pkt { c with
        qp.reqPkts := c.qp.reqPkts ++ pkts, qp.rq := rq, qp.srq := srq, dev, skb, cq
        out := c.out ++ es } :=
      fun h => ⟨h.res, fun p hp => hhead p (h.head p hp)⟩
    have hserving : ∀ p, Serving c p → Serving { c with
        qp.reqPkts := c.qp.reqPkts ++ pkts, qp.rq := rq, qp.srq := srq, dev, skb, cq
        out := c.out ++ es } p := by
      rintro p ⟨i, r, new, before, ps, hserve⟩
      exact ⟨i, r, new, before, ps,
        { hserve with resps := (readResps_append_silent c.out hes).trans hserve.resps }⟩
    cases state with
    | getReq | done | exit =>
      exact hnow.imp_right fun ⟨p, hp, hserve⟩ => ⟨p, hhead p hp, hserving p hserve⟩
    | readReply =>
      obtain ⟨p, hp, hp', hread⟩ := hnow
      refine ⟨p, hp, hhead p hp', hread.imp (fun hstart => { hstart with }) (hserving p)⟩
    | duplicateRequest | chkLength | chkRkey | execute => exact ⟨hno hnow.1, hnow.2⟩
    | error | errCqOverflow => trivial
    | reset => exact hnow.elim
    | _ => exact hno hnow

theorem reads_reach {c₀ : Ctx} {sys : RespSys} (h₀ : ReplyStart c₀)
    (hreach : Reach respPass ReadRoom (.idle c₀) sys) :
    sys.Holds ExpectedInv (fun c => c.qp.type = .rc) ∧ sys.Holds ReplyInv ReplyIdle := by
  refine Reach.inv (I := fun sys => sys.Holds ExpectedInv (fun c => c.qp.type = .rc) ∧
    sys.Holds ReplyInv ReplyIdle) ⟨h₀.rc, h₀.toRingInv, Or.inr (Or.inl h₀.noRes)⟩ ?_ hreach
  rintro sys a sys' ⟨hexp, hread⟩ hok hstep
  obtain ⟨c, rfl, rfl, rfl⟩ | ⟨s, rfl, rfl, rfl⟩ | ⟨f, hf, rfl⟩ := respPass_cases hstep
  · refine ⟨respEnter_expected hexp, ?_⟩
    have hread : ReplyIdle c := hread
    unfold respEnter
    dsimp only
    rw [if_neg (show ¬ c.qp.resp.state = .reset from hread.ring.state)]
    have hnow : c.qp.resp.state = .error ∨
        Between { c with qp.resp.aethSyndrome := aethAckUnlimited } :=
      hread.now.imp_right fun hnow => hnow.imp_right fun ⟨p, hp, i, r, new, before, ps, hserve⟩ =>
        ⟨p, hp, i, r, new, before, ps, { hserve with }⟩
    split
    · exact ⟨{ hread.ring with }, hnow⟩
    · exact ⟨{ hread.ring with }, hnow⟩
  · exact ⟨expectedRule.step (g := ()) hexp,
      readRule.step (g := ()) ⟨⟨hexp, hok s rfl⟩, hread⟩⟩
  · refine ⟨hexp.change hf, ?_⟩
    cases sys with
    | idle c =>
      have hdone : ReplyInv .done none c := ⟨hread.ring, hread.now⟩
      exact ⟨(change_read hf hdone).ring, (change_read hf hdone).now⟩
    | busy s => exact change_read hf hread

/-- One more response of the stream; the expected PSN stays. -/
structure GoesOn (c : Ctx) (p : Pkt) (new : Bool) (before : List ReadResp) (ps : List (List UInt8))
    (x : List UInt8) (c' : Ctx) : Prop where
  reply : readReply c p = (.done, c')
  psn : c'.qp.resp.psn = c.qp.resp.psn
  more : (ps.length + 1) * c.qp.mtu < p.reth.len
  resps : readResps c'.out = before ++ numbered p.psn (opened new (ps ++ [x]))

/-- The last response of the stream; the next request is expected behind it. -/
structure Completes (c : Ctx) (p : Pkt) (new : Bool) (before : List ReadResp)
    (ps : List (List UInt8)) (x : List UInt8) (c' : Ctx) : Prop where
  reply : readReply c p = (.cleanup, c')
  res : c'.qp.resp.res = none
  psn : c'.qp.resp.psn = psnMask (p.psn + (ps ++ [x]).length)
  cut : ∃ data, Cut c.qp.mtu data (ps ++ [x]) ∧ data.length = p.reth.len
  resps : readResps c'.out = before ++ numbered p.psn (framed new (ps ++ [x]))

theorem readReplyRes_noRoom {c : Ctx} (p : Pkt) (i : ℕ) (r : RespRes) (hroom : ¬ c.skbRoom) :
    ∃ c', readReplyRes c p i r = (.errRnr, c') ∧ c'.qp.resp.res = c.qp.resp.res := by
  have hfail : (setRes c i RespRes.started).takeSkb.1 = false := by
    unfold Ctx.skbRoom at hroom
    rw [takeSkb_fst]
    show c.skb.headD true = false
    cases hskb : c.skb with
    | nil => simp [hskb] at hroom
    | cons b bs => simpa [hskb] using hroom
  have hnone : ∀ opcode payload psn syn, prepareAckPacket (setRes c i RespRes.started) p opcode
      payload psn syn = (none, (setRes c i RespRes.started).takeSkb.2) := by
    intro opcode payload psn syn
    unfold prepareAckPacket
    rw [← Prod.mk.eta (p := (setRes c i RespRes.started).takeSkb), hfail]
  unfold readReplyRes
  dsimp only
  rw [hnone]
  exact ⟨_, rfl, by rw [takeSkb_qp]; rfl⟩

section Outcome

variable {c : Ctx} {p : Pkt} {i : ℕ} {r : RespRes} {new : Bool} {before : List ReadResp}
  {ps : List (List UInt8)}

theorem Serves.outcome (h : Serves c p i r new before ps) (hmtu : c.qp.mtu < 2 ^ 31) :
    (c.skbRoom → p.reth.len < 2 ^ 31 → ∃ x c', GoesOn c p new before ps x c' ∨
      Completes c p new before ps x c') ∧
    (¬ c.skbRoom → ∃ c', readReply c p = (.errRnr, c') ∧ c'.qp.resp.res.isSome) := by
  refine ⟨fun hroom hsmall => ?_, fun hroom => ?_⟩
  · obtain ⟨x, c', -, -, -, ⟨hreply, hmore, hpsn, r', hserve, -⟩ | ⟨hreply, hres, hpsn, hcut,
      hlen, hresps⟩⟩ := readReply_serves h hroom hsmall hmtu
    · exact ⟨x, c', Or.inl ⟨hreply, hpsn, hmore, hserve.resps⟩⟩
    · exact ⟨x, c', Or.inr ⟨hreply, hres, hpsn, ⟨_, hcut, hlen⟩, hresps⟩⟩
  · obtain ⟨c', hreply, hres⟩ := readReplyRes_noRoom p i r hroom
    refine ⟨c', (h.readReply_eq p).trans hreply, ?_⟩
    rw [hres, h.res]
    rfl

end Outcome

/-- In every run whose allocations in `read_reply` have succeeded so far, the responder answers
only the request at hand, which is a READ_REQUEST: with the next response of its own stream,
which begins with FIRST or ONLY if the request has the expected PSN.  The expected PSN stays
until the last response.  Where the next allocation fails, the request is given up and the
read stays under way. -/
theorem read_reply_own_request (c₀ c : Ctx) (p : Pkt) (h₀ : ReplyStart c₀)
    (hreach : Reach respPass ReadRoom (.idle c₀) (.busy ⟨.readReply, some p, c⟩))
    (hstate : c.qp.resp.state ≠ .error) :
    p.mask.read ∧ c.qp.reqPkts.head? = some p ∧ psnCompare p.psn c.qp.resp.psn ≤ 0 ∧
      ∃ new before ps, (psnCompare p.psn c.qp.resp.psn = 0 → new = true) ∧
        readResps c.out = before ++ numbered p.psn (opened new ps) ∧
        (c.skbRoom → p.reth.len < 2 ^ 31 → ∃ x c', GoesOn c p new before ps x c' ∨
          Completes c p new before ps x c') ∧
        (¬ c.skbRoom → ∃ c', readReply c p = (.errRnr, c') ∧ c'.qp.resp.res.isSome) := by
  have hinv : ReplyInv .readReply (some p) c := (reads_reach h₀ hreach).2
  obtain ⟨q, ⟨⟩, hhead, hstart | ⟨i, r, new, before, ps, hserve⟩⟩ := hinv.now.resolve_left hstate
  -- a read that `execute` has just handed over, without a resource
  · obtain ⟨r, hserve⟩ := hstart.serves
    have hreply := readReply_fresh p hstart.res
    obtain ⟨hskbEq, hmtu, hpsn⟩ := initReadRes_keeps c p
    have hroomEq : (initReadRes c p).skbRoom ↔ c.skbRoom := by
      unfold Ctx.skbRoom
      rw [hskbEq]
    obtain ⟨hroom, hfail⟩ := hserve.outcome (hmtu.trans_lt hinv.ring.mtu)
    refine ⟨hstart.read, hhead, le_of_eq hstart.psn, true, readResps c.out, [], fun _ => rfl,
      (List.append_nil _).symm, fun hskb hsmall => ?_, fun hskb => ?_⟩
    · obtain ⟨x, c', hgo | hend⟩ := hroom (hroomEq.2 hskb) hsmall
      · refine ⟨x, c', Or.inl ⟨hreply.trans hgo.reply, hgo.psn.trans hpsn, ?_, hgo.resps⟩⟩
        rw [← hmtu]
        exact hgo.more
      · refine ⟨x, c', Or.inr ⟨hreply.trans hend.reply, hend.res, hend.psn, ?_, hend.resps⟩⟩
        rw [← hmtu]
        exact hend.cut
    · obtain ⟨c', hrnr, hres⟩ := hfail fun hyes => hskb (hroomEq.1 hyes)
      exact ⟨c', hreply.trans hrnr, hres⟩
  · exact ⟨hserve.read, hhead, hserve.psn, new, before, ps, hserve.begins, hserve.resps,
      (hserve.outcome hinv.ring.mtu).1, (hserve.outcome hinv.ring.mtu).2⟩

/-- A test of the condition before the first response. -/
def noReply (sys : RespSys) : RespAct → Bool
  | .pass =>
    match sys with
    | .idle _ => false
    | .busy s => s.state ≠ .readReply
  | _ => true

theorem readRoom_of_noReply (sys : RespSys) (a : RespAct) (h : noReply sys a) : ReadRoom sys a := by
  cases a with
  | pass =>
    rintro s rfl hreply
    exact absurd hreply (of_decide_eq_true h)
  | call | recv | postRecv | error | env | shareSrq => trivial

def upToReply : List RespAct := [.recv replayRead, .call] ++ List.replicate 8 .pass

/-- A read of four bytes, up to its answer. -/
def firstReply : Option RespSys :=
  upToReply.foldlM (fun sys a => if noReply sys a then respPass sys a else none) (.idle replayQp)

theorem replayQp_start : ReplyStart replayQp where
  mtu := by decide
  state := nofun
  ring _ := ⟨by decide, by decide⟩
  rc := rfl
  noRes := rfl

/-- The read about to be answered, the state of the QP, the PSN, and what allocations do. -/
def RespSys.replying : RespSys → Option (Pkt × QpState × ℕ × List Bool)
  | .busy ⟨.readReply, some p, c⟩ => some (p, c.qp.resp.state, c.qp.resp.psn, c.skb)
  | _ => none

/-- The read is answered with the one packet of its stream. -/
theorem read_reply_own_request_first :
    ∃ c before ps x c', firstReply = some (.busy ⟨.readReply, some replayRead, c⟩) ∧
      (GoesOn c replayRead true before ps x c' ∨ Completes c replayRead true before ps x c') := by
  have hrun : firstReply.bind RespSys.replying = some (replayRead, .ready, 0, []) := by decide
  obtain ⟨sys, hsys, hat⟩ := Option.bind_eq_some_iff.1 hrun
  unfold RespSys.replying at hat
  split at hat
  · next p c =>
    obtain ⟨rfl, hrest⟩ := Prod.mk.inj (Option.some.inj hat)
    obtain ⟨hstate, hrest⟩ := Prod.mk.inj hrest
    obtain ⟨hpsn, hskb⟩ := Prod.mk.inj hrest
    obtain ⟨-, -, -, new, before, ps, hnew, -, hroom, -⟩ := read_reply_own_request replayQp c
      replayRead replayQp_start (Reach.start.foldlM_checked readRoom_of_noReply _ hsys)
      (by rw [hstate]; decide)
    obtain rfl : new = true := hnew (by rw [hpsn]; decide)
    obtain ⟨x, c', hout⟩ := hroom (by unfold Ctx.skbRoom; rw [hskb]; decide) (by decide)
    exact ⟨c, before, ps, x, c', hsys, hout⟩
  · cases hat

/-- The first response to a read cannot be allocated.  The SEND behind it is then answered with
the last response of the read and not executed, and so is the read when it is repeated. -/
theorem read_reply_other_request :
    ((respRun { replayQp with skb := [false] }
        [.recv replayRead, .task 20, .recv replaySend, .task 20]).map fun c =>
      (readResps c.out, execPsns c.out, c.qp.reqPkts, c.qp.resp.psn)) =
        some ([⟨.rcRdmaReadResponseLast, 0, [0, 0, 0, 0]⟩], [0], [], 1) ∧
    ((respRun { replayQp with skb := [false] }
        [.recv replayRead, .task 20, .recv replayRead, .task 20]).map fun c =>
      (readResps c.out, execPsns c.out, c.qp.reqPkts, c.qp.resp.psn)) =
        some ([⟨.rcRdmaReadResponseLast, 0, [0, 0, 0, 0]⟩], [0], [], 1) := by decide

end Rxe
