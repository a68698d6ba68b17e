/-
A UC responder fed from a stream of packets.

The sender produces an infinite stream of packets with consecutive PSNs (`Traffic`); the
network delivers some of them, in any order and any number of times, where two packets
delivered one after the other are fewer than `2 ^ 23` positions apart.  The packets of a
message are taken one by one:

* `Chain` — the packets executed last are those from one position of the stream on, and
  they begin a message;
* `Part` — the receive WQE in use has taken exactly the payloads of these packets;
* `ucRule` — every pass of the responder keeps the invariant;
* `uc_no_splice` — a receive completion without an error belongs to all packets of one
  message, executed one after the other, and for a SEND the buffer starts with their
  payloads.
-/
import Rxe.RecvOrder
import Rxe.Scatter

namespace Rxe

variable {K : Kind} {v : UcView} {pkt : Option Pkt} {p : Pkt} {w : RecvWqe} {srq : Srq}
  {a : RespAct}

/-! ### Messages -/

/-- The messages of a UC QP. -/
inductive Kind
  | send | write
  deriving DecidableEq

namespace Kind

def first : Kind → Opcode
  | .send => .ucSendFirst
  | .write => .ucRdmaWriteFirst

def middle : Kind → Opcode
  | .send => .ucSendMiddle
  | .write => .ucRdmaWriteMiddle

/-- Opcodes of a packet that starts a message. -/
def start : Kind → List Opcode
  | .send => [.ucSendFirst, .ucSendOnly, .ucSendOnlyWithImmediate]
  | .write => [.ucRdmaWriteFirst, .ucRdmaWriteOnly, .ucRdmaWriteOnlyWithImmediate]

/-- Opcodes of a packet that continues a message. -/
def next : Kind → List Opcode
  | .send => ucSendNext
  | .write => ucWriteNext

/-- Opcodes of the single packet of a message that uses up a receive WQE. -/
def only : Kind → List Opcode
  | .send => [.ucSendOnly, .ucSendOnlyWithImmediate]
  | .write => [.ucRdmaWriteOnlyWithImmediate]

/-- Opcodes of the last packet of a message that uses up a receive WQE. -/
def last : Kind → List Opcode
  | .send => [.ucSendLast, .ucSendLastWithImmediate]
  | .write => [.ucRdmaWriteLastWithImmediate]

end Kind

/-- The kind of message that was begun and not ended by a packet with this opcode. -/
def openKind : Option Opcode → Option Kind
  | some .ucSendFirst | some .ucSendMiddle => some .send
  | some .ucRdmaWriteFirst | some .ucRdmaWriteMiddle => some .write
  | _ => none

/-- What a UC sender sends and what of it arrives: the packet at each position of the stream,
and the position of each packet delivered. -/
structure Traffic where
  pkt : ℕ → Pkt
  base : ℕ
  psn : ∀ i, (pkt i).psn = psnMask (base + i)
  uc : ∀ i, (pkt i).opcode.isUc
  sched : ℕ → ℕ
  near : ∀ n, sched (n + 1) < sched n + 2 ^ 23 ∧ sched n < sched (n + 1) + 2 ^ 23

namespace Traffic

variable (T : Traffic)

/-- The packets delivered first. -/
def arrived (g : ℕ) : List Pkt := (List.range g).map fun n => T.pkt (T.sched n)

/-- The payloads of some consecutive packets. -/
def payload (first n : ℕ) : List UInt8 := (List.range' first n).flatMap fun i => (T.pkt i).payload

/-- The `n` packets from a position on begin a message. -/
def Begins (K : Kind) (first n : ℕ) : Prop :=
  ∀ i < n, (T.pkt (first + i)).opcode = if i = 0 then K.first else K.middle

/-- The packets from `first` to `last` are those of a message that uses up a receive WQE. -/
def Message (K : Kind) (first last : ℕ) : Prop :=
  first ≤ last ∧ T.Begins K first (last - first) ∧
    (T.pkt last).opcode ∈ if first = last then K.only else K.last

end Traffic

/-- The requests executed. -/
def execPkts (es : List Event) : List Pkt :=
  es.filterMap fun
    | .exec p _ => some p
    | _ => none

theorem execPkts_append (es es' : List Event) :
    execPkts (es ++ es') = execPkts es ++ execPkts es' :=
  List.filterMap_append ..

theorem execPkts_silent {es : List Event} (h : Silent es) : execPkts es = [] := by
  refine List.filterMap_eq_nil_iff.2 fun e he => ?_
  have hs := h e he
  cases e <;> first | rfl | cases hs

/-! ### What the invariant reads -/

/-- The part of a context the invariant speaks about. -/
structure UcView where
  type : QpType
  pd : ℕ
  state : QpState
  psn : ℕ
  opcode : Option Opcode
  dropMsg : Bool
  gotoError : Bool
  status : WcStatus
  wqe : Option RecvRef
  srqWqe : RecvWqe
  res : Option ℕ
  rq : RingBuf RecvWqe
  srq : Option Srq
  reqPkts : List Pkt
  dev : Dev
  execs : List Pkt

def Ctx.uc (c : Ctx) : UcView where
  type := c.qp.type
  pd := c.qp.pd
  state := c.qp.resp.state
  psn := c.qp.resp.psn
  opcode := c.qp.resp.opcode
  dropMsg := c.qp.resp.dropMsg
  gotoError := c.qp.resp.gotoError
  status := c.qp.resp.status
  wqe := c.qp.resp.wqe
  srqWqe := c.qp.resp.srqWqe
  res := c.qp.resp.res
  rq := c.qp.rq
  srq := c.qp.srq
  reqPkts := c.qp.reqPkts
  dev := c.dev
  execs := execPkts c.out

theorem uc_said (c : Ctx) {es : List Event} (h : Silent es) :
    { c with out := c.out ++ es }.uc = c.uc := by
  unfold Ctx.uc
  rw [execPkts_append, execPkts_silent h, List.append_nil]

/-- The receive WQE in use. -/
def UcView.recvWqe (v : UcView) : Option RecvWqe :=
  match v.wqe with
  | none => none
  | some (.rq i) => v.rq.get? i
  | some .srq => some v.srqWqe

theorem recvWqe_uc (c : Ctx) : c.uc.recvWqe = recvWqe c.qp := rfl

/-! ### Receive WQEs -/

/-- The same receive, whatever has been stored in its buffer. -/
structure RecvWqe.Same (w' w : RecvWqe) : Prop where
  wrId : w'.wrId = w.wrId
  length : w'.dma.length = w.dma.length
  sge : w'.dma.sge = w.dma.sge

/-- No packet has been stored in the WQE. -/
def RecvWqe.fresh (w : RecvWqe) : Prop := w.dma.At 0 ∧ w.dma.length ≤ sgeSum w.dma.sge

/-- The bytes `P`, and no others, have been stored in the WQE. -/
structure RecvWqe.Took (w : RecvWqe) (dev : Dev) (pd : ℕ) (P : List UInt8) : Prop where
  cursor : w.dma.At P.length
  fits : w.dma.length ≤ sgeSum w.dma.sge
  filled : BufOk dev pd w.dma.sge → Filled dev pd w.dma.sge P

theorem RecvWqe.fresh.took (h : w.fresh) (dev : Dev) (pd : ℕ) : w.Took dev pd [] :=
  ⟨h.1, h.2, fun _ _ _ hnil => nomatch hnil⟩

theorem dmaAt_rewind (dma : DmaInfo) :
    DmaInfo.At { dma with resid := dma.length, curSge := 0, sgeOffset := 0 } 0 where
  pos := rfl
  inside _ _ := Nat.zero_le _
  cur := Nat.zero_le _
  resid := rfl

theorem initRecvWqe_fresh (wr : RecvWr) : (initRecvWqe wr).fresh :=
  ⟨dmaAt_rewind (initRecvWqe wr).dma, Nat.mod_le _ _⟩

/-- The receive WQE in use has taken exactly the bytes `P`. -/
def Part (v : UcView) (P : List UInt8) : Prop := ∀ w, v.recvWqe = some w → w.Took v.dev v.pd P

/-! ### The invariant -/

section Inv

variable (T : Traffic) (g : ℕ) (v : UcView) (p : Pkt)

/-- The number of packets taken from the queue. -/
def consumed : ℕ := g - v.reqPkts.length

/-- What always holds of the receive queue. -/
structure Sound : Prop where
  uc : v.type = .uc
  res : v.res = none
  state : v.state ≠ .reset
  ref : ∀ r, v.wqe = some r → if v.srq.isSome then r = .srq else r = .rq 0 ∧ v.rq.live ≠ []
  tail : ∀ w ∈ v.rq.live.tail, w.fresh
  fits : ∀ w ∈ v.rq.live, w.dma.length ≤ sgeSum w.dma.sge
  srq : ∀ srq, v.srq = some srq → ∀ w ∈ srq.queue.live, w.fresh

/-- What always holds; `g` packets have been delivered. -/
structure Base : Prop extends Sound v where
  queue : v.reqPkts <:+ T.arrived g

/-- Without an SRQ, the head of the receive queue is unused or takes the SEND in progress. -/
def Head : Prop :=
  v.srq = none →
    (openKind v.opcode ≠ some .send ∧ ∀ w, v.rq.live.head? = some w → w.fresh) ∨
    (openKind v.opcode = some .send ∧ v.wqe = some (.rq 0))

/-- The packets executed last are those from `first` on, and they begin a message. -/
structure Chain (K : Kind) (first n : ℕ) : Prop where
  begins : T.Begins K first n
  execs : ∃ pre, v.execs = pre ++ (List.range' first n).map T.pkt

/-- A message is in progress, and position `first + n` is expected next. -/
structure InMessage (K : Kind) (first n : ℕ) : Prop where
  chain : Chain T v K first n
  pos : 0 < n
  psn : v.psn = psnMask (T.base + (first + n))
  part : K = .send → Part v (T.payload first n)

/-- The position of the packet delivered at `t` is `x`, or the one before it. -/
def Close (t x : ℕ) : Prop := T.sched t + 1 = x ∨ T.sched t = x

/-- A message of which no packet has been dropped is in progress, and the packet taken last is
the one delivered at `t`. -/
def Going (t : ℕ) : Prop :=
  ∀ K, openKind v.opcode = some K → v.dropMsg = false →
    ∃ first n, InMessage T v K first n ∧ Close T t (first + n)

/-- Between two packets. -/
structure Settled : Prop where
  head : Head v
  going : ∀ K, openKind v.opcode = some K → v.dropMsg = false →
    ∃ t first n, t + 1 = consumed g v ∧ InMessage T v K first n ∧ Close T t (first + n)

/-- The packet at hand is the next one of the message in progress, or starts one. -/
structure Fits (K : Kind) (first n : ℕ) : Prop where
  chain : Chain T v K first n
  pkt : p = T.pkt (first + n)
  pos : T.sched (consumed g v) = first + n
  opcode : p.opcode ∈ if n = 0 then K.start else K.next
  opened : openKind v.opcode = if n = 0 then none else some K
  psn : 0 < n → v.psn = psnMask (T.base + (first + n))

/-- The packet at hand can be executed. -/
structure Ready (K : Kind) (first n : ℕ) : Prop where
  next : Fits T g v p K first n
  part : K = .send → Part v (T.payload first n)
  wqe : p.mask.rwr → v.recvWqe.isSome

/-- What holds when `check_op_seq` runs. -/
def Sequenced : Prop :=
  ∀ K, openKind v.opcode = some K → p.mask.start ∨
    ∃ first n, InMessage T v K first n ∧ T.sched (consumed g v) = first + n

/-- The packet at hand ends a message that has been executed. -/
structure Completed : Prop where
  message : ∃ K first last, T.Message K first last ∧ p = T.pkt last ∧
    (∃ pre, v.execs = pre ++ (List.range' first (last + 1 - first)).map T.pkt) ∧
    (K = .send → Part v (T.payload first (last + 1 - first)))

/-- What holds in a state of the responder. -/
def UcAt (state : RespState) (pkt : Option Pkt) : Prop :=
  match state with
  | .getReq => v.gotoError = false ∧ (v.state ≠ .error → Settled T g v)
  | .chkPsn => ∃ p, pkt = some p ∧ v.reqPkts.head? = some p ∧ v.gotoError = false ∧ Settled T g v
  | .chkOpSeq | .errMissingOpcodeLastD1e =>
    ∃ p, pkt = some p ∧ v.reqPkts.head? = some p ∧ v.gotoError = false ∧ Head v ∧
      Sequenced T g v p
  | .chkOpValid =>
    ∃ p, pkt = some p ∧ v.reqPkts.head? = some p ∧ v.gotoError = false ∧ Head v ∧
      ∃ K first n, Fits T g v p K first n ∧ (0 < n → K = .send → Part v (T.payload first n))
  | .chkResource => v.state ≠ .error →
    ∃ p, pkt = some p ∧ v.reqPkts.head? = some p ∧ v.gotoError = false ∧ Head v ∧
      ∃ K first n, Fits T g v p K first n ∧ (0 < n → K = .send → Part v (T.payload first n))
  | .chkLength | .chkRkey | .execute =>
    ∃ p, pkt = some p ∧ v.reqPkts.head? = some p ∧ v.gotoError = false ∧ Head v ∧
      ∃ K first n, Ready T g v p K first n
  | .errRnr | .errRkeyViolation =>
    ∃ p, pkt = some p ∧ v.reqPkts.head? = some p ∧ v.gotoError = false ∧ Head v
  | .errLength =>
    ∃ p, pkt = some p ∧ v.reqPkts.head? = some p ∧ v.gotoError = false ∧ Head v ∧
      (v.srq = none ∨ Going T v (consumed g v))
  | .errMalformedWqe => ∃ p, pkt = some p ∧ v.reqPkts.head? = some p
  | .complete =>
    (v.status = .success → ∃ p, pkt = some p ∧ Completed T v p) ∧
    (v.state ≠ .error → ∃ p, pkt = some p ∧ v.reqPkts.head? = some p ∧ (v.gotoError = false →
      (v.srq = none → openKind v.opcode = none ∧ v.recvWqe.isSome) ∧ Going T v (consumed g v)))
  | .cleanup => v.state ≠ .error → ∃ p, pkt = some p ∧ v.reqPkts.head? = some p ∧
    (v.gotoError = false → Head v ∧ Going T v (consumed g v))
  | .done | .exit => v.state ≠ .error → v.gotoError = false → Settled T g v
  | .errCqOverflow | .error => True
  | _ => False

/-- The invariant of the loop. -/
def UcInv (state : RespState) (pkt : Option Pkt) (v : UcView) : Prop :=
  Base T g v ∧ UcAt T g v state pkt

/-- The invariant between two calls. -/
def UcIdle (v : UcView) : Prop :=
  Base T g v ∧ v.gotoError = false ∧ (v.state ≠ .error → Settled T g v)

end Inv

/-! ### Opcodes -/

theorem not_start_of_mem (h : p.opcode ∈ K.next) : ¬ p.mask.start := by
  unfold Pkt.mask
  cases K <;>
    simp only [Kind.next, ucSendNext, ucWriteNext, List.mem_cons, List.not_mem_nil, or_false]
      at h <;>
    rcases h with h | h | h <;> rw [h] <;> exact Bool.false_ne_true

theorem start_of_not_mem {o : Opcode} (huc : o.isUc) (hsend : o ∉ ucSendNext)
    (hwrite : o ∉ ucWriteNext) :
    ∃ K : Kind, o ∈ K.start := by
  cases o <;> first | exact absurd huc Bool.false_ne_true | exact ⟨.send, by decide⟩ |
    exact ⟨.write, by decide⟩ | exact absurd (by decide) hsend | exact absurd (by decide) hwrite

theorem kind_mask (h : p.opcode ∈ K.start ∨ p.opcode ∈ K.next) :
    p.mask.send = decide (K = .send) ∧ p.mask.write = decide (K = .write) ∧ p.mask.read = false ∧
      p.mask.atomic = false := by
  unfold Pkt.mask
  cases K <;> simp only [Kind.start, Kind.next, ucSendNext, ucWriteNext, List.mem_cons,
      List.not_mem_nil, or_false] at h <;>
    rcases h with (h | h | h) | (h | h | h) <;> rw [h] <;> exact ⟨rfl, rfl, rfl, rfl⟩

theorem rwr_of_start (h : p.opcode ∈ Kind.send.start) : p.mask.rwr := by
  unfold Pkt.mask
  simp only [Kind.start, List.mem_cons, List.not_mem_nil, or_false] at h
  rcases h with h | h | h <;> rw [h] <;> rfl

theorem not_rwr_of_next (h : p.opcode ∈ Kind.send.next) : ¬ p.mask.rwr := by
  unfold Pkt.mask
  simp only [Kind.next, ucSendNext, List.mem_cons, List.not_mem_nil, or_false] at h
  rcases h with h | h | h <;> rw [h] <;> exact Bool.false_ne_true

variable {n t first : ℕ}

theorem exec_cases (h : p.opcode ∈ if n = 0 then K.start else K.next) :
    (p.opcode = (if n = 0 then K.first else K.middle) ∧ openKind (some p.opcode) = some K ∧
        p.mask.comp = false) ∨
      (openKind (some p.opcode) = none ∧ p.mask.comp ∧
        p.opcode ∈ if n = 0 then K.only else K.last) ∨
      (openKind (some p.opcode) = none ∧ p.mask.comp = false ∧ K = .write) := by
  unfold Pkt.mask
  -- the first packet of a message starts it, the others continue it
  by_cases hn : n = 0
  · rw [if_pos hn] at h
    rw [if_pos hn, if_pos hn]
    cases K <;> simp only [Kind.start, List.mem_cons, List.not_mem_nil, or_false] at h <;>
      rcases h with h | h | h <;> rw [h] <;> decide
  · rw [if_neg hn] at h
    rw [if_neg hn, if_neg hn]
    cases K <;>
      simp only [Kind.next, ucSendNext, ucWriteNext, List.mem_cons, List.not_mem_nil, or_false]
        at h <;>
      rcases h with h | h | h <;> rw [h] <;> decide

theorem checkOpSeq_eq {c : Ctx} (huc : c.qp.type = .uc) (p : Pkt) :
    checkOpSeq c p = match openKind c.qp.resp.opcode with
      | some K => (if p.opcode ∈ K.next then .chkOpValid else .errMissingOpcodeLastD1e, c)
      | none =>
        if p.opcode ∈ ucSendNext ∨ p.opcode ∈ ucWriteNext then
          (.cleanup, { c with qp.resp.dropMsg := true })
        else (.chkOpValid, c) := by
  unfold checkOpSeq
  rw [huc]
  generalize c.qp.resp.opcode = o
  cases o with
  | none => rfl
  | some o => cases o <;> rfl

/-! ### The queue of packets -/

section Queue

variable {T : Traffic} {g : ℕ} {v : UcView} {p : Pkt}

theorem Base.length_le (h : Base T g v) : v.reqPkts.length ≤ g := by
  have hle := h.queue.length_le
  rwa [Traffic.arrived, List.length_map, List.length_range] at hle

theorem Base.hand (h : Base T g v) (hp : v.reqPkts.head? = some p) :
    p = T.pkt (T.sched (consumed g v)) := by
  obtain ⟨pre, hpre⟩ := h.queue
  have hlen : pre.length + v.reqPkts.length = g := by
    rw [← List.length_append, hpre, Traffic.arrived, List.length_map, List.length_range]
  have hindex : consumed g v = pre.length := by
    unfold consumed
    omega
  have hget : (T.arrived g)[pre.length]? = some p := by
    rw [← hpre, List.getElem?_append_right (Nat.le_refl _), Nat.sub_self, ← List.head?_eq_getElem?]
    exact hp
  rw [hindex]
  rw [Traffic.arrived, List.getElem?_map, Option.map_eq_some_iff] at hget
  obtain ⟨m, hm, rfl⟩ := hget
  obtain ⟨hlt, hm⟩ := List.getElem?_eq_some_iff.1 hm
  rw [List.getElem_range] at hm
  rw [hm]

theorem Base.tailPkts (h : Base T g v) : Base T g { v with reqPkts := v.reqPkts.tail } :=
  { h with queue := (List.tail_suffix _).trans h.queue }

theorem Base.consumed_tail (h : Base T g v) (hp : v.reqPkts.head? = some p) :
    consumed g { v with reqPkts := v.reqPkts.tail } = consumed g v + 1 := by
  have hle := h.length_le
  obtain ⟨rest, hq⟩ := List.head?_eq_some_iff.1 hp
  unfold consumed
  dsimp only
  rw [hq] at hle ⊢
  rw [List.length_cons] at hle ⊢
  rw [List.tail_cons]
  omega

theorem Close.next {x : ℕ} (h : Close T t x)
    (hpsn : psnMask (T.base + T.sched (t + 1)) = psnMask (T.base + x)) : T.sched (t + 1) = x := by
  have hnear := T.near t
  unfold psnMask psnMod at hpsn
  unfold Close at h
  omega

end Queue

/-! ### The passes -/

section Passes

variable {T : Traffic} {g : ℕ} {p : Pkt} {c : Ctx}

theorem Base.drop {v : UcView} (hb : Base T g v) (hp : v.reqPkts.head? = some p) (hhead : Head v) :
    UcInv T g .cleanup (some p) { v with dropMsg := true } :=
  ⟨{ hb with }, fun _ => ⟨p, rfl, hp, fun _ => ⟨hhead, fun _ _ hdrop => nomatch hdrop⟩⟩⟩

theorem getReq_uc (h : UcInv T g .getReq pkt c.uc) :
    UcInv T g (getReq c pkt).1 (getReq c pkt).2.1 (getReq c pkt).2.2.uc := by
  obtain ⟨hb, herr, hs⟩ := h
  unfold getReq
  split
  · next hstate =>
    split
    · exact ⟨hb, fun hne => absurd hstate hne⟩
    · next q pkts hq =>
      have htail := hb.tailPkts
      rw [show c.uc.reqPkts = q :: pkts from hq] at htail
      exact ⟨htail, herr, fun hne => absurd hstate hne⟩
  · next hstate =>
    split
    · exact ⟨hb, fun _ _ => hs hstate⟩
    · next q pkts hq =>
      rw [if_neg (by rw [show c.qp.resp.res = none from hb.res]; exact Bool.false_ne_true)]
      exact ⟨hb, q, rfl, by rw [show c.uc.reqPkts = q :: pkts from hq]; rfl, herr, hs hstate⟩

theorem respCheckPsn_uc (h : UcInv T g .chkPsn (some p) c.uc) :
    UcInv T g (respCheckPsn c p).1 (some p) (respCheckPsn c p).2.uc := by
  obtain ⟨hb, _, ⟨⟩, hp, herr, hs⟩ := h
  unfold respCheckPsn
  rw [show c.qp.type = .uc from hb.uc]
  dsimp only
  split
  · split
    · next hstart => exact ⟨{ hb with }, p, rfl, hp, herr, hs.head, fun _ _ => Or.inl hstart⟩
    · exact hb.drop hp hs.head
  · next hseq =>
    rw [not_or, Bool.not_eq_true, not_not] at hseq
    refine ⟨hb, p, rfl, hp, herr, hs.head, fun K hK => Or.inr ?_⟩
    -- no packet was dropped and the PSN is the expected one: by `Close` so is the position
    obtain ⟨t, first, n, ht, hmsg, hclose⟩ := hs.going K hK hseq.1
    refine ⟨first, n, hmsg, ?_⟩
    rw [← ht]
    refine hclose.next ?_
    have hpsn := psnCompare_eq_zero.1 hseq.2
    rw [hb.hand hp, T.psn, ← ht, show c.qp.resp.psn = _ from hmsg.psn] at hpsn
    unfold psnMask at hpsn ⊢
    rwa [Nat.mod_mod, Nat.mod_mod] at hpsn

theorem checkOpSeq_uc (h : UcInv T g .chkOpSeq (some p) c.uc) :
    UcInv T g (checkOpSeq c p).1 (some p) (checkOpSeq c p).2.uc := by
  obtain ⟨hb, _, ⟨⟩, hp, herr, hhead, hseq⟩ := h
  rw [checkOpSeq_eq (show c.qp.type = .uc from hb.uc)]
  split
  · next K hK =>
    split
    · next hnext =>
      -- a packet that continues a message is the expected one
      rcases hseq K hK with hstart | ⟨first, n, hmsg, hpos⟩
      · exact absurd hstart (not_start_of_mem hnext)
      · have hn : n ≠ 0 := Nat.pos_iff_ne_zero.1 hmsg.pos
        refine ⟨hb, p, rfl, hp, herr, hhead, K, first, n, ?_, fun _ => hmsg.part⟩
        exact
          { chain := hmsg.chain
            pkt := hpos ▸ hb.hand hp
            pos := hpos
            opcode := by rw [if_neg hn]; exact hnext
            opened := by rw [if_neg hn]; exact hK
            psn := fun _ => hmsg.psn }
    · exact ⟨hb, p, rfl, hp, herr, hhead, hseq⟩
  · next hK =>
    split
    · exact hb.drop hp hhead
    · next hstart =>
      rw [not_or] at hstart
      have hpkt := hb.hand hp
      obtain ⟨K, hmem⟩ := start_of_not_mem (hpkt ▸ T.uc _) hstart.1 hstart.2
      refine ⟨hb, p, rfl, hp, herr, hhead, K, T.sched (consumed g c.uc), 0, ?_, fun h => nomatch h⟩
      exact
        { chain := ⟨fun i hi => (nomatch hi), c.uc.execs, (List.append_nil _).symm⟩
          pkt := hpkt
          pos := rfl
          opcode := hmem
          opened := hK
          psn := fun h => nomatch h }

theorem checkOpValid_uc (h : UcInv T g .chkOpValid (some p) c.uc) :
    UcInv T g (checkOpValid c p).1 (some p) (checkOpValid c p).2.uc := by
  obtain ⟨hb, _, ⟨⟩, hp, herr, hhead, hfits⟩ := h
  unfold checkOpValid
  rw [show c.qp.type = .uc from hb.uc]
  dsimp only
  split
  · exact hb.drop hp hhead
  · exact ⟨hb, fun _ => ⟨p, rfl, hp, herr, hhead, hfits⟩⟩

theorem recvWqe_rq {rest : List RecvWqe} (hwqe : v.wqe = some (.rq 0))
    (hlive : v.rq.live = w :: rest) : v.recvWqe = some w := by
  unfold UcView.recvWqe
  rw [hwqe]
  dsimp only
  rw [RingBuf.get?_of_lt (by simp [hlive]), hlive]
  rfl

theorem takeRqHead_sound (hb : Sound c.uc) (hsrq : c.qp.srq = none) : Sound (takeRqHead c).uc :=
  { hb with
    ref := by
      intro r hr
      show if c.qp.srq.isSome then _ else _
      rw [hsrq]
      dsimp only [takeRqHead, Ctx.uc] at hr ⊢
      split at hr
      · cases hr
      · next hne =>
        cases hr
        exact ⟨rfl, fun hnil => hne (by rw [hnil]; rfl)⟩ }

theorem Fits.kind (h : Fits T g v p K first n) : p.opcode ∈ K.start ∨ p.opcode ∈ K.next := by
  have hop := h.opcode
  split at hop
  · exact Or.inl hop
  · exact Or.inr hop

theorem Fits.rwr_send (h : Fits T g v p .send first n) (hrwr : p.mask.rwr) : n = 0 := by
  by_contra hn
  have hop := h.opcode
  rw [if_neg hn] at hop
  exact not_rwr_of_next hop hrwr

theorem Fits.rwr_opened (h : Fits T g v p K first n) (hrwr : p.mask.rwr) :
    openKind v.opcode ≠ some .send := by
  intro hsend
  have hopened := h.opened
  rw [hsend] at hopened
  split at hopened
  · cases hopened
  · next hn =>
    cases hopened
    exact hn (h.rwr_send hrwr)

theorem Fits.write_opened (h : Fits T g v p .write first n) : openKind v.opcode ≠ some .send := by
  intro hsend
  have hopened := h.opened
  rw [hsend] at hopened
  split at hopened <;> cases hopened

theorem Head.fresh (h : Head v) (hsrq : v.srq = none) (hopen : openKind v.opcode ≠ some .send)
    (hw : v.rq.live.head? = some w) : w.fresh := by
  rcases h hsrq with ⟨-, hfresh⟩ | ⟨hsend, -⟩
  · exact hfresh w hw
  · exact absurd hsend hopen

theorem takeRqHead_uc (hsrq : c.qp.srq = none) (hb : Base T g c.uc)
    (hp : c.uc.reqPkts.head? = some p) (herr : c.uc.gotoError = false) (hhead : Head c.uc)
    (hfits : Fits T g c.uc p K first n) (hrwr : p.mask.rwr) :
    UcInv T g (if (takeRqHead c).qp.resp.wqe.isSome then .chkLength else .errRnr) (some p)
      (takeRqHead c).uc := by
  have hbase : Base T g (takeRqHead c).uc := ⟨takeRqHead_sound hb.toSound hsrq, hb.queue⟩
  have hfresh : ∀ w, c.qp.rq.live.head? = some w → w.fresh := fun w =>
    hhead.fresh hsrq (hfits.rwr_opened hrwr)
  have hhead' : Head (takeRqHead c).uc := fun _ => Or.inl ⟨hfits.rwr_opened hrwr, hfresh⟩
  split
  · next hsome =>
    obtain ⟨w, rest, hlive⟩ : ∃ w rest, c.qp.rq.live = w :: rest := by
      refine List.exists_cons_of_ne_nil fun hnil => ?_
      dsimp only [takeRqHead] at hsome
      rw [hnil] at hsome
      cases hsome
    have hwqe : (takeRqHead c).uc.wqe = some (.rq 0) := by
      dsimp only [takeRqHead, Ctx.uc]
      rw [hlive]
      rfl
    have hrecv : (takeRqHead c).uc.recvWqe = some w := recvWqe_rq hwqe hlive
    refine ⟨hbase, p, rfl, hp, herr, hhead', K, first, n,
      { hfits with chain := { hfits.chain with } }, ?_, fun _ => by rw [hrecv]; rfl⟩
    -- a SEND takes its WQE with its first packet, and the head of the queue is unused
    rintro rfl v hv
    rw [hrecv] at hv
    cases hv
    rw [hfits.rwr_send hrwr]
    exact (hfresh w (by rw [hlive]; rfl)).took _ _
  · exact ⟨hbase, p, rfl, hp, herr, hhead'⟩

theorem Sound.takeSrq (hb : Sound v) (w : RecvWqe) (srq' : Srq)
    (hsrq : v.srq = some srq) (hsub : ∀ w' ∈ srq'.queue.live, w' ∈ srq.queue.live) :
    Sound { v with srqWqe := w, wqe := some .srq, srq := some srq' } :=
  { hb with
    ref := by
      rintro r hr
      cases hr
      exact rfl
    srq := by
      rintro s hs w' hw'
      cases hs
      exact hb.srq srq hsrq w' (hsub w' hw') }

theorem getSrqWqe_uc (hsrq : c.qp.srq = some srq) (hb : Base T g c.uc)
    (hp : c.uc.reqPkts.head? = some p) (herr : c.uc.gotoError = false) (hhead : Head c.uc)
    (hfits : Fits T g c.uc p K first n) (hrwr : p.mask.rwr) :
    UcInv T g (getSrqWqe c srq).1 (some p) (getSrqWqe c srq).2.uc := by
  unfold getSrqWqe
  split
  · exact ⟨hb, p, rfl, hp, herr, hhead⟩
  · split
    · exact ⟨hb, p, rfl, hp, herr, hhead⟩
    · next w rest hlive =>
      -- the limit event is the only difference between the two ways out
      have htake : ∀ limit, UcInv T g .chkLength (some p)
          { c.uc with srqWqe := w, wqe := some .srq,
                      srq := some { srq with queue := srq.queue.pop, limit } } := by
        intro limit
        have hfresh := hb.srq srq hsrq
        have hsound := hb.toSound.takeSrq w { srq with queue := srq.queue.pop, limit } hsrq
          fun w' hw' => by
            rw [show srq.queue.pop.live = rest by rw [RingBuf.pop_live hlive]] at hw'
            exact hlive ▸ List.mem_cons_of_mem w hw'
        refine ⟨⟨hsound, hb.queue⟩, p, rfl, hp, herr, fun h => (nomatch h), K, first, n,
          { hfits with chain := { hfits.chain with } }, ?_, fun _ => rfl⟩
        rintro rfl v hv
        cases hv
        rw [hfits.rwr_send hrwr]
        exact (hfresh w (by rw [hlive]; exact List.mem_cons_self)).took _ _
      dsimp only
      split
      · have hview := uc_said { c with
          qp.resp.srqWqe := w, qp.resp.wqe := some .srq,
          qp.srq := some { srq with queue := srq.queue.pop, limit := 0 } }
            (silent_one (e := .srqLimitReached) rfl)
        exact hview ▸ htake 0
      · exact htake srq.limit

theorem checkResource_uc (h : UcInv T g .chkResource pkt c.uc) :
    UcInv T g (checkResource c pkt).1 pkt (checkResource c pkt).2.uc := by
  obtain ⟨hb, hrun⟩ := h
  unfold checkResource
  split
  · next hstate =>
    -- flushing: the packet is not looked at any more
    have hflush : Base T g (takeFlushWqe c).uc ∧ (takeFlushWqe c).qp.resp.state = .error := by
      unfold takeFlushWqe
      split
      · next hnone =>
        exact ⟨⟨takeRqHead_sound hb.toSound (Option.isNone_iff_eq_none.1 hnone.2),
          hb.queue⟩, hstate⟩
      · exact ⟨hb, hstate⟩
    dsimp only
    split
    · show UcInv T g .complete pkt { (takeFlushWqe c).uc with status := .wrFlushErr }
      exact ⟨{ hflush.1 with }, fun hsucc => (nomatch hsucc), fun hne => absurd hflush.2 hne⟩
    · exact ⟨hflush.1, fun hne => absurd hflush.2 hne⟩
  · next hstate =>
    obtain ⟨p, rfl, hp, herr, hhead, K, first, n, hfits, hpart⟩ := hrun hstate
    have hkind := hfits.kind
    obtain ⟨-, -, hread, hatomic⟩ := kind_mask hkind
    dsimp only
    rw [if_neg (by rw [HdrMask.readOrAtomic, hread, hatomic]; exact Bool.false_ne_true)]
    split
    · next hrwr =>
      split
      · next srq hsrq => exact getSrqWqe_uc hsrq hb hp herr hhead hfits hrwr
      · next hsrq => exact takeRqHead_uc hsrq hb hp herr hhead hfits hrwr
    · next hrwr =>
      refine ⟨hb, p, rfl, hp, herr, hhead, K, first, n, hfits, ?_, fun h => absurd h hrwr⟩
      rintro rfl
      refine hpart (Nat.pos_of_ne_zero fun hn => hrwr (rwr_of_start ?_)) rfl
      have hop := hfits.opcode
      rwa [if_pos hn] at hop

theorem checkRkey_ucView (c : Ctx) (p : Pkt) : (checkRkey c p).2.uc = c.uc := by
  obtain ⟨va, rkey, resid, mr, hc⟩ := checkRkey_frame c p
  rw [hc]
  rfl

theorem checkRkey_uc (h : UcInv T g .chkRkey (some p) c.uc) :
    UcInv T g (checkRkey c p).1 (some p) (checkRkey c p).2.uc := by
  obtain ⟨hb, _, ⟨⟩, hp, herr, hhead, K, first, n, hready⟩ := h
  obtain ⟨hsend, hwrite, hread, hatomic⟩ := kind_mask hready.next.kind
  rw [checkRkey_ucView]
  rcases checkRkey_state c p with hs | ⟨hremote, hs | hs⟩ <;> rw [hs]
  · exact ⟨hb, p, rfl, hp, herr, hhead, K, first, n, hready⟩
  · exact ⟨hb, p, rfl, hp, herr, hhead⟩
  · refine ⟨hb, p, rfl, hp, herr, hhead, Or.inr ?_⟩
    -- only an RDMA WRITE has a key to check, and its length error leaves the message open
    obtain rfl : K = .write := by
      rw [hread, hatomic, hwrite] at hremote
      simpa using hremote
    intro K' hK' _
    have hopened := hready.next.opened
    rw [hK'] at hopened
    split at hopened
    · cases hopened
    · next hn =>
      cases hopened
      have hpos := Nat.pos_of_ne_zero hn
      exact ⟨first, n, ⟨hready.next.chain, hpos, hready.next.psn hpos, fun h => (nomatch h)⟩,
        Or.inr hready.next.pos⟩

/-- A change of the receive WQE in use that keeps its buffer: in the copy that was taken from
the SRQ, or at the head of the receive queue. -/
theorem setRecvWqe_head {f : RecvWqe → RecvWqe} (hw : recvWqe c.qp = some w)
    (hlen : (f w).dma.length = w.dma.length) (hsge : (f w).dma.sge = w.dma.sge)
    (href : ∀ r, c.uc.wqe = some r → r = .srq ∨ r = .rq 0 ∧ c.uc.rq.live ≠ []) :
    ∃ rq srqWqe, (setRecvWqe c f).uc = { c.uc with rq, srqWqe } ∧
      UcView.recvWqe { c.uc with rq, srqWqe } = some (f w) ∧
      rq.live.tail = c.uc.rq.live.tail ∧ (rq.live = [] ↔ c.uc.rq.live = []) ∧
      ((∀ w ∈ c.uc.rq.live, w.dma.length ≤ sgeSum w.dma.sge) →
        ∀ w ∈ rq.live, w.dma.length ≤ sgeSum w.dma.sge) ∧
      (c.uc.wqe = some .srq ∧ rq = c.uc.rq ∨
        c.uc.wqe = some (.rq 0) ∧ rq.live.head? = some (f w)) := by
  have hrecv : UcView.recvWqe (setRecvWqe c f).uc = some (f w) := by
    rw [recvWqe_uc, recvWqe_setRecvWqe, hw]
    rfl
  unfold recvWqe at hw
  unfold setRecvWqe at hrecv ⊢
  -- which WQE is in use: none, the head of the receive queue, or the copy from the SRQ
  split at hw
  · cases hw
  · next i hi =>
    rw [hi] at hrecv
    obtain ⟨⟨⟩⟩ | ⟨⟨⟩, hne⟩ := href _ hi
    obtain ⟨w', rest, hlive⟩ := List.exists_cons_of_ne_nil hne
    have hlive : c.qp.rq.live = w' :: rest := hlive
    rw [RingBuf.get?_head hlive] at hw
    cases hw
    refine ⟨c.qp.rq.modify 0 f, c.qp.resp.srqWqe, rfl, hrecv, ?_⟩
    rw [show c.uc.rq.live = w :: rest from hlive, RingBuf.modify_head_live f hlive]
    refine ⟨rfl, iff_of_false (List.cons_ne_nil _ _) (List.cons_ne_nil _ _), fun hfits v hv => ?_,
      Or.inr ⟨hi, rfl⟩⟩
    rcases List.mem_cons.1 hv with rfl | hv
    · rw [hlen, hsge]
      exact hfits w List.mem_cons_self
    · exact hfits v (List.mem_cons_of_mem w hv)
  · next hi =>
    rw [hi] at hrecv
    exact ⟨c.qp.rq, f c.qp.resp.srqWqe, rfl, hrecv, rfl, Iff.rfl, id, Or.inl ⟨hi, rfl⟩⟩

theorem setRecvWqe_uc {f : RecvWqe → RecvWqe} (hb : Sound c.uc)
    (hw : recvWqe c.qp = some w) (hlen : (f w).dma.length = w.dma.length)
    (hsge : (f w).dma.sge = w.dma.sge) :
    ∃ rq srqWqe, (setRecvWqe c f).uc = { c.uc with rq, srqWqe } ∧
      Sound { c.uc with rq, srqWqe } ∧
      UcView.recvWqe { c.uc with rq, srqWqe } = some (f w) ∧
      (c.qp.srq = none → rq.live.head? = some (f w)) := by
  have href : ∀ r, c.uc.wqe = some r → r = .srq ∨ r = .rq 0 ∧ c.uc.rq.live ≠ [] := by
    intro r hr
    have href := hb.ref r hr
    split at href
    · exact Or.inl href
    · exact Or.inr href
  obtain ⟨rq, srqWqe, hview, hrecv, htail, hnil, hfits, hcase⟩ :=
    setRecvWqe_head hw hlen hsge href
  refine ⟨rq, srqWqe, hview, { hb with ref := ?_, tail := htail ▸ hb.tail, fits := hfits hb.fits },
    hrecv, fun hsrq => ?_⟩
  · intro r hr
    have href := hb.ref r hr
    rwa [ne_eq, ← hnil] at href
  · rcases hcase with ⟨hi, -⟩ | ⟨-, hhead⟩
    · have href := hb.ref _ hi
      rw [show c.uc.srq = none from hsrq] at href
      cases href.1
    · exact hhead

/-- What a transfer into the receive WQE in use comes to: its cursor moves behind the data, or
the WQE is found to be malformed. -/
theorem sendDataIn_copy {k : ℕ} (hw : recvWqe c.qp = some w) (hat : w.dma.At k)
    (hfits : w.dma.length ≤ sgeSum w.dma.sge) (data : List UInt8) :
    ∃ dma dev r, copyDataIn c.dev c.qp.pd (some .localWrite) w.dma data = (dma, dev, r) ∧
      dma.length = w.dma.length ∧ dma.sge = w.dma.sge ∧
      (sendDataIn c data).2 = setRecvWqe { c with dev } (fun w => { w with dma }) ∧
      ((sendDataIn c data).1 = some .errMalformedWqe ∧ r ≠ .ok () ∨
        (sendDataIn c data).1 = none ∧ r = .ok () ∧ dma.At (k + data.length)) := by
  have hstart := copyDataIn_start c.dev c.qp.pd (some .localWrite) w.dma data
  unfold sendDataIn
  rw [hw]
  dsimp only
  obtain ⟨⟨dma, dev, r⟩, hcopy⟩ :
    ∃ r, copyDataIn c.dev c.qp.pd (some .localWrite) w.dma data = r := ⟨_, rfl⟩
  rw [hcopy] at hstart ⊢
  have hlen : dma.start.length = w.dma.start.length := congrArg DmaInfo.length hstart
  have hsge : dma.start.sge = w.dma.start.sge := congrArg DmaInfo.sge hstart
  refine ⟨dma, dev, r, rfl, hlen, hsge, ?_⟩
  cases r with
  | ok u => exact ⟨rfl, Or.inr ⟨rfl, rfl, copyDataIn_at hat hcopy⟩⟩
  | error e =>
    -- a buffer as long as its SGEs does not run out of them
    have he := copyDataIn_enospc hat hfits hcopy
    cases e with
    | enospc => exact absurd rfl he
    | einval | efault => exact ⟨rfl, Or.inl ⟨rfl, nofun⟩⟩

/-- The payload of a SEND packet is stored behind what the WQE has taken. -/
theorem sendDataIn_uc {P : List UInt8} (hb : Sound c.uc) (hpart : Part c.uc P) (data : List UInt8) :
    ∃ rq srqWqe dev, (sendDataIn c data).2.uc = { c.uc with rq, srqWqe, dev } ∧
      Sound { c.uc with rq, srqWqe, dev } ∧
      ((sendDataIn c data).1 = some .errMalformedWqe ∨ (sendDataIn c data).1 = none ∧
        ∃ w w', c.uc.recvWqe = some w ∧ UcView.recvWqe { c.uc with rq, srqWqe, dev } = some w' ∧
          w'.Same w ∧ w'.Took dev c.qp.pd (P ++ data)) := by
  cases hw : recvWqe c.qp with
  | none =>
    have hdata : sendDataIn c data = (some .errMalformedWqe, c) := by
      unfold sendDataIn
      rw [hw]
    rw [hdata]
    exact ⟨c.qp.rq, c.qp.resp.srqWqe, c.dev, rfl, { hb with }, Or.inl rfl⟩
  | some w =>
    have htook := hpart w hw
    obtain ⟨byte, hdev⟩ := copyDataIn_frame c.dev c.qp.pd (some .localWrite) w.dma data
    obtain ⟨dma, dev, r, hcopy, hlen, hsge, hc, hres⟩ :=
      sendDataIn_copy hw htook.cursor htook.fits data
    rw [hcopy] at hdev
    obtain ⟨rq, srqWqe, hview, hbase, hrecv, -⟩ := setRecvWqe_uc (c := { c with dev })
      (f := fun w => { w with dma }) { hb with } hw hlen hsge
    refine ⟨rq, srqWqe, dev, by rw [hc]; exact hview, hbase, hres.imp And.left ?_⟩
    rintro ⟨hnone, rfl, hat⟩
    refine ⟨hnone, w, _, hw, hrecv, ⟨rfl, hlen, hsge⟩, ?_, ?_, fun hok => ?_⟩
    · rw [List.length_append]
      exact hat
    · rw [hlen, hsge]
      exact htook.fits
    · rw [hsge] at hok ⊢
      -- the copy changes bytes, not regions
      have hmem : ∀ sge ∈ w.dma.sge,
          localMem c.dev c.qp.pd sge.lkey = localMem dev c.qp.pd sge.lkey := fun sge _ =>
        localMem_congr (show c.dev.regions = dev.regions by rw [show dev = _ from hdev]; rfl) _ _
      have hok' := hok.congr hmem
      exact copyDataIn_filled htook.cursor rfl hok' (htook.filled hok') hcopy

theorem writeDataIn_err (c : Ctx) (p : Pkt) :
    ∀ err, (writeDataIn c p).1 = some err → err = .errRkeyViolation := by
  intro err h
  unfold writeDataIn at h
  split at h
  · cases h
    rfl
  · split at h
    · cases h
      rfl
    · cases h

theorem payload_succ (T : Traffic) (first n : ℕ) :
    T.payload first (n + 1) = T.payload first n ++ (T.pkt (first + n)).payload := by
  unfold Traffic.payload
  rw [List.range'_concat, List.flatMap_append, Nat.one_mul]
  exact congrArg _ (List.append_nil _)

theorem Fits.chain_succ (h : Fits T g v p K first n)
    (hop : p.opcode = if n = 0 then K.first else K.middle) : T.Begins K first (n + 1) := by
  intro i hi
  rcases Nat.lt_succ_iff_lt_or_eq.1 hi with hlt | rfl
  · exact h.chain.begins i hlt
  · rw [← h.pkt]
    exact hop

theorem Fits.execs_succ (h : Fits T g v p K first n) :
    ∃ pre, v.execs ++ [p] = pre ++ (List.range' first (n + 1)).map T.pkt := by
  obtain ⟨pre, hpre⟩ := h.chain.execs
  refine ⟨pre, ?_⟩
  rw [hpre, List.range'_concat, List.map_append, Nat.one_mul, h.pkt, List.append_assoc]
  rfl

theorem comp_write_rwr (h : p.opcode ∈ if n = 0 then Kind.write.only else Kind.write.last) :
    p.mask.rwr := by
  unfold Pkt.mask
  split at h <;> simp only [Kind.only, Kind.last, List.mem_singleton] at h <;> rw [h] <;> rfl

/-- The WQE in use of a QP without an SRQ is the head of its receive queue. -/
theorem Sound.wqe_rq (hb : Sound v) (hsrq : v.srq = none) (hw : v.recvWqe.isSome) :
    v.wqe = some (.rq 0) := by
  unfold UcView.recvWqe at hw
  split at hw
  · cases hw
  · next hi =>
    have href := hb.ref _ hi
    rw [hsrq] at href
    rw [href.1] at hi
    exact hi
  · next hi =>
    have href := hb.ref _ hi
    rw [hsrq] at href
    cases href.1

theorem executeDone_uc_view (c : Ctx) (p : Pkt) :
    (executeDone c p).2.uc = { c.uc with
      psn := psnMask (p.psn + 1), opcode := some p.opcode, status := .success
      execs := c.uc.execs ++ [p] } := by
  unfold executeDone Ctx.uc
  dsimp only [Ctx.emit]
  rw [execPkts_append]
  rfl

theorem executeDone_uc (hb : Base T g c.uc) (hp : c.uc.reqPkts.head? = some p)
    (hfits : Fits T g c.uc p K first n) (hhead : K = .write → Head c.uc)
    (hpart : K = .send → Part c.uc (T.payload first (n + 1)))
    (hwqe : K = .send ∨ p.mask.rwr → c.uc.recvWqe.isSome) :
    UcInv T g (executeDone c p).1 (some p) (executeDone c p).2.uc := by
  have hview := executeDone_uc_view c p
  have hbase : Base T g (executeDone c p).2.uc := by
    exact { hb with }
  -- UC requests are not acknowledged
  have hstate : (executeDone c p).1 = if p.mask.comp then .complete else .cleanup := by
    show (if p.mask.comp then RespState.complete else if c.qp.type = .rc then .acknowledge
      else .cleanup) = _
    rw [show c.qp.type = .uc from hb.uc, if_neg (show ¬ QpType.uc = .rc by decide)]
  refine ⟨hbase, ?_⟩
  rw [hstate, hview]
  have hexecs := hfits.execs_succ
  rcases exec_cases hfits.opcode with
    ⟨hop, hopen, hcomp⟩ | ⟨hopen, hcomp, hop⟩ | ⟨hopen, hcomp, rfl⟩
  · -- the message goes on
    rw [if_neg (by rw [hcomp]; exact Bool.false_ne_true)]
    refine fun _ => ⟨p, rfl, hp, fun _ => ⟨fun hsrq => ?_, fun K' hK' _ => ?_⟩⟩
    · cases K with
      | send => exact Or.inr ⟨hopen, hb.wqe_rq hsrq (hwqe (Or.inl rfl))⟩
      | write =>
        refine Or.inl ⟨by rw [show openKind _ = some .write from hopen]; nofun, fun w =>
          (hhead rfl).fresh hsrq hfits.write_opened⟩
    · obtain rfl : K = K' := Option.some_inj.1 (hopen.symm.trans hK')
      refine ⟨first, n + 1, ⟨⟨hfits.chain_succ hop, hexecs⟩, Nat.succ_pos n, ?_, hpart⟩, Or.inl ?_⟩
      · rw [hfits.pkt, T.psn, psnMask_add, Nat.add_assoc, Nat.add_assoc]
      · show T.sched (consumed g c.uc) + 1 = _
        rw [hfits.pos, Nat.add_assoc]
  · -- the message uses up a receive WQE
    rw [if_pos hcomp]
    have hsome : c.uc.recvWqe.isSome := by
      refine hwqe ?_
      cases K with
      | send => exact Or.inl rfl
      | write => exact Or.inr (comp_write_rwr hop)
    refine ⟨fun _ => ⟨p, rfl, K, first, first + n, ⟨Nat.le_add_right _ _, ?_, ?_⟩, hfits.pkt,
      ?_, ?_⟩, fun _ => ⟨p, rfl, hp, fun _ => ⟨fun _ => ⟨hopen, hsome⟩, fun K' hK' _ => ?_⟩⟩⟩
    · rw [Nat.add_sub_cancel_left]
      exact hfits.chain.begins
    · rw [← hfits.pkt]
      by_cases hn : n = 0
      · rw [if_pos hn] at hop
        rw [if_pos (by omega)]
        exact hop
      · rw [if_neg hn] at hop
        rw [if_neg (by omega)]
        exact hop
    · rw [Nat.add_assoc, Nat.add_sub_cancel_left]
      exact hexecs
    · rw [Nat.add_assoc, Nat.add_sub_cancel_left]
      exact hpart
    · rw [show openKind _ = none from hopen] at hK'
      cases hK'
  · -- the end of a plain RDMA WRITE
    rw [if_neg (by rw [hcomp]; exact Bool.false_ne_true)]
    refine fun _ => ⟨p, rfl, hp,
      fun _ => ⟨fun hsrq => Or.inl ⟨?_, fun w => ?_⟩, fun K' hK' _ => ?_⟩⟩
    · rw [show openKind _ = none from hopen]
      nofun
    · exact (hhead rfl).fresh hsrq hfits.write_opened
    · rw [show openKind _ = none from hopen] at hK'
      cases hK'

theorem execute_uc (h : UcInv T g .execute (some p) c.uc) :
    UcInv T g (execute c p).1 (some p) (execute c p).2.uc := by
  obtain ⟨hb, _, ⟨⟩, hp, herr, hhead, K, first, n, hready⟩ := h
  obtain ⟨hsend, hwrite, hread, hatomic⟩ := kind_mask hready.next.kind
  unfold execute
  rw [if_neg (by rw [hread]; simp)]
  cases K with
  | send =>
    have hdata : executeData c p = sendDataIn c p.payload := by
      unfold executeData
      rw [if_pos (by rw [hsend]; rfl), if_neg (by rw [show c.qp.type = .uc from hb.uc]; simp)]
    obtain ⟨rq, srqWqe, dev, hview, hsound, hres⟩ :=
      sendDataIn_uc hb.toSound (hready.part rfl) p.payload
    have hbase : Base T g { c.uc with rq, srqWqe, dev } := ⟨hsound, hb.queue⟩
    rw [hdata]
    obtain ⟨⟨r, c'⟩, hr⟩ : ∃ r, sendDataIn c p.payload = r := ⟨_, rfl⟩
    rw [hr] at hview hres ⊢
    rw [← hview] at hbase hres
    rcases hres with rfl | ⟨rfl, -, w', -, hw', -, htook⟩
    · exact ⟨hbase, p, rfl, by rw [hview]; exact hp⟩
    · have hfits : Fits T g c'.uc p .send first n := by
        rw [hview]
        exact { hready.next with chain := { hready.next.chain with } }
      refine executeDone_uc hbase (by rw [hview]; exact hp) hfits
        (fun h => (nomatch h)) (fun _ v hv => ?_) fun _ => Option.isSome_iff_exists.2 ⟨w', hw'⟩
      obtain rfl := Option.some_inj.1 (hw'.symm.trans hv)
      rw [payload_succ, ← hready.next.pkt, hview]
      exact htook
  | write =>
    have hdata : executeData c p = writeDataIn c p :=
      executeData_of_write c (by rw [hwrite]; rfl)
    -- an RDMA WRITE does not touch the receive WQE
    obtain ⟨byte, va, resid, hc⟩ := writeDataIn_frame c p
    rw [hdata]
    have herrs := writeDataIn_err c p
    obtain ⟨⟨r, c'⟩, hr⟩ : ∃ r, writeDataIn c p = r := ⟨_, rfl⟩
    rw [hr] at hc herrs ⊢
    subst hc
    have hbase : Base T g { c.uc with dev := { c.dev with byte } } := { hb with }
    cases r with
    | some err =>
      cases herrs err rfl
      exact ⟨hbase, p, rfl, hp, herr, hhead⟩
    | none =>
      have hfits : Fits T g { c.uc with dev := { c.dev with byte } } p .write first n :=
        { hready.next with chain := { hready.next.chain with } }
      exact executeDone_uc hbase hp hfits (fun _ => hhead) (fun h => (nomatch h)) fun h =>
        hready.wqe (h.resolve_left nofun)

theorem retireRecvWqe_live (c : Ctx) :
    (retireRecvWqe c).uc.rq.live = c.uc.rq.live.tail ∧ c.qp.srq = none ∨
      (retireRecvWqe c).uc.rq.live = c.uc.rq.live ∧ c.qp.srq ≠ none := by
  unfold retireRecvWqe
  dsimp only [Ctx.uc]
  split
  · next hsrq => exact Or.inl ⟨RingBuf.live_pop _, Option.isNone_iff_eq_none.1 hsrq⟩
  · next hsrq => exact Or.inr ⟨rfl, fun hnone => hsrq (Option.isNone_iff_eq_none.2 hnone)⟩

theorem retireRecvWqe_sound (hb : Sound c.uc) : Sound (retireRecvWqe c).uc := by
  rcases retireRecvWqe_live c with ⟨hrq, -⟩ | ⟨hrq, -⟩
  · refine { hb with ref := nofun, tail := ?_, fits := ?_ } <;> rw [hrq]
    · exact fun w hw => hb.tail w (List.mem_of_mem_tail hw)
    · exact fun w hw => hb.fits w (List.mem_of_mem_tail hw)
  · refine { hb with ref := nofun, tail := ?_, fits := ?_ } <;> rw [hrq]
    · exact hb.tail
    · exact hb.fits

theorem retireRecvWqe_head (hb : Sound c.uc)
    (hopen : c.qp.srq = none → openKind c.qp.resp.opcode = none) : Head (retireRecvWqe c).uc := by
  intro hsrq
  refine Or.inl ⟨?_, fun w hw => ?_⟩
  · rw [show openKind (retireRecvWqe c).uc.opcode = none from hopen hsrq]
    nofun
  rcases retireRecvWqe_live c with ⟨hrq, -⟩ | ⟨-, hno⟩
  · exact hb.tail w (List.mem_of_mem_head? (hrq ▸ hw))
  · exact absurd hsrq hno

theorem Going.retire (h : Going T c.uc t) : Going T (retireRecvWqe c).uc t := by
  intro K hK hdrop
  obtain ⟨first, n, hmsg, hclose⟩ := h K hK hdrop
  exact ⟨first, n,
    { hmsg with chain := { hmsg.chain with }, part := fun _ w hw => (nomatch hw) }, hclose⟩

theorem retireRecvWqe_ucView (c : Ctx) (cq : List Bool) {e : Event} (he : execPkts [e] = []) :
    { retireRecvWqe c with cq, out := c.out ++ [e] }.uc = (retireRecvWqe c).uc := by
  show { (retireRecvWqe c).uc with execs := execPkts (c.out ++ [e]) } = _
  rw [execPkts_append, he, List.append_nil]
  rfl

theorem respDoComplete_uc (h : UcInv T g .complete pkt c.uc) :
    UcInv T g (respDoComplete c pkt).1 pkt (respDoComplete c pkt).2.uc := by
  obtain ⟨hb, -, hrun⟩ := h
  have hretire : Base T g (retireRecvWqe c).uc := ⟨retireRecvWqe_sound hb.toSound, hb.queue⟩
  rcases respDoComplete_cases c pkt with ⟨hnone, heq⟩ | ⟨wqe, cq, -, heq | heq⟩ <;> rw [heq]
  · refine ⟨hb, fun hne => ?_⟩
    obtain ⟨p, rfl, hp, hafter⟩ := hrun hne
    refine ⟨p, rfl, hp, fun herr => ⟨fun hsrq => ?_, (hafter herr).2⟩⟩
    have hsome := ((hafter herr).1 hsrq).2
    -- without an SRQ there is a WQE to complete
    rw [recvWqe_uc, hnone] at hsome
    cases hsome
  · rw [retireRecvWqe_ucView c cq rfl]
    refine ⟨hretire, ?_⟩
    unfold respAfterCqe
    split
    · next hstate => exact fun hne => absurd hstate hne
    · next hstate =>
      obtain ⟨p, rfl, hp, hafter⟩ := hrun hstate
      rw [if_neg (by simp), if_neg (by rw [show c.qp.type = .uc from hb.uc]; simp)]
      exact fun _ => ⟨p, rfl, hp, fun herr =>
        ⟨retireRecvWqe_head hb.toSound fun hsrq => ((hafter herr).1 hsrq).1,
          (hafter herr).2.retire⟩⟩
  · rw [retireRecvWqe_ucView c cq rfl]
    exact ⟨hretire, trivial⟩

theorem rxeQpError_ucView (c : Ctx) : (rxeQpError c).uc = { c.uc with state := .error } := by
  obtain ⟨req, sq, respPkts, cq, es, hes, hc⟩ := rxeQpError_frame c
  rw [hc]
  exact uc_said { c with cq, qp.req := req, qp.sq := sq, qp.respPkts := respPkts,
                         qp.resp.state := .error } hes

theorem doClassD1eError_uc (h : UcInv T g .errMissingOpcodeLastD1e pkt c.uc) :
    UcInv T g (doClassD1eError c).1 pkt (doClassD1eError c).2.uc := by
  obtain ⟨hb, p, rfl, hp, herr, hhead, hseq⟩ := h
  unfold doClassD1eError
  split
  · next hsrq =>
    have hsrq' : ¬ c.uc.srq = none := Option.isSome_iff_ne_none.1 hsrq
    dsimp only
    split
    · show UcInv T g .complete (some p) { c.uc with dropMsg := true, status := .remInvReqErr }
      exact ⟨{ hb with }, fun hsucc => (nomatch hsucc), fun _ => ⟨p, rfl, hp, fun _ =>
        ⟨fun hnone => absurd hnone hsrq', fun _ _ hdrop => (nomatch hdrop)⟩⟩⟩
    · exact ⟨{ hb with }, fun _ => ⟨p, rfl, hp, fun _ =>
        ⟨fun hnone => absurd hnone hsrq', fun _ _ hdrop => (nomatch hdrop)⟩⟩⟩
  · next hsrq =>
    have hnone : c.uc.srq = none := by
      rw [Bool.not_eq_true, Option.isSome_eq_false_iff, Option.isNone_iff_eq_none] at hsrq
      exact hsrq
    split
    · next hsome =>
      -- the WQE of the message that is broken off is rewound and kept for the next one
      obtain ⟨r, hr⟩ := Option.isSome_iff_exists.1 hsome
      have href := hb.ref r hr
      rw [hnone] at href
      obtain ⟨rfl, hne⟩ := href
      obtain ⟨w, rest, hlive⟩ := List.exists_cons_of_ne_nil hne
      obtain ⟨rq, srqWqe, hview, hsound, -, hfirst⟩ :=
        setRecvWqe_uc hb.toSound (recvWqe_rq hr hlive)
        (f := fun w =>
          { w with
            dma := { w.dma with resid := w.dma.length, curSge := 0, sgeOffset := 0 } }) rfl rfl
      have hgoal : UcInv T g .chkOpSeq (some p) { c.uc with rq, srqWqe, opcode := none } := by
        refine ⟨{ hsound with queue := hb.queue }, p, rfl, hp, herr,
          fun _ => Or.inl ⟨nofun, fun v hv => ?_⟩, fun K hK => (nomatch hK)⟩
        obtain rfl := Option.some_inj.1 ((hfirst hnone).symm.trans hv)
        exact ⟨dmaAt_rewind w.dma, hb.fits w (by rw [hlive]; exact List.mem_cons_self)⟩
      exact (congrArg (fun v : UcView => UcInv T g .chkOpSeq (some p) { v with opcode := none })
        hview).mpr hgoal
    · exact ⟨hb, p, rfl, hp, herr, hhead, hseq⟩

theorem respErrRnr_uc (h : UcInv T g .errRnr (some p) c.uc) :
    UcInv T g .cleanup (some p) (respErrRnr c p).uc := by
  obtain ⟨hb, _, ⟨⟩, hp, herr, hhead⟩ := h
  unfold respErrRnr
  rw [if_neg (by rw [show c.qp.type = .uc from hb.uc]; simp)]
  exact hb.drop hp hhead

theorem respErrRkey_uc (h : UcInv T g .errRkeyViolation pkt c.uc) :
    UcInv T g (respErrRkey c).1 pkt (respErrRkey c).2.uc := by
  obtain ⟨hb, p, rfl, hp, herr, hhead⟩ := h
  unfold respErrRkey
  rw [if_neg (by rw [show c.qp.type = .uc from hb.uc]; simp)]
  dsimp only
  split
  · next hsrq =>
    show UcInv T g .complete (some p) { c.uc with dropMsg := true, status := .remAccessErr }
    exact ⟨{ hb with }, fun hsucc => (nomatch hsucc), fun _ => ⟨p, rfl, hp, fun _ =>
      ⟨fun hnone => absurd hnone (Option.isSome_iff_ne_none.1 hsrq),
        fun _ _ hdrop => (nomatch hdrop)⟩⟩⟩
  · exact hb.drop hp hhead

theorem respErrLength_uc (h : UcInv T g .errLength pkt c.uc) :
    UcInv T g (respErrLength c).1 pkt (respErrLength c).2.uc := by
  obtain ⟨hb, p, rfl, hp, herr, hhead, hgoing⟩ := h
  unfold respErrLength
  rw [if_neg (by rw [show c.qp.type = .uc from hb.uc]; simp)]
  split
  · next hsrq =>
    have hsrq' := Option.isSome_iff_ne_none.1 hsrq
    show UcInv T g .complete (some p) { c.uc with status := .remInvReqErr }
    refine ⟨{ hb with }, fun hsucc => (nomatch hsucc), fun _ => ⟨p, rfl, hp, fun _ =>
      ⟨fun hnone => absurd hnone hsrq', fun K hK hdrop => ?_⟩⟩⟩
    obtain ⟨first, n, hmsg, hclose⟩ := (hgoing.resolve_left hsrq') K hK hdrop
    exact ⟨first, n, { hmsg with chain := { hmsg.chain with } }, hclose⟩
  · exact hb.drop hp hhead

theorem cleanup_uc (h : UcInv T g .cleanup pkt c.uc) :
    UcInv T g .done pkt (cleanup c pkt).uc := by
  obtain ⟨hb, hrun⟩ := h
  cases pkt with
  | none =>
    refine ⟨hb, fun hne => ?_⟩
    obtain ⟨p, hp, -⟩ := hrun hne
    cases hp
  | some q =>
    refine ⟨hb.tailPkts, fun hne herr => ?_⟩
    obtain ⟨p, -, hp, hafter⟩ := hrun hne
    obtain ⟨hhead, hgoing⟩ := hafter herr
    refine ⟨hhead, fun K hK hdrop => ?_⟩
    -- the packet just taken is the last one delivered to the responder
    obtain ⟨first, n, hmsg, hclose⟩ := hgoing K hK hdrop
    exact ⟨consumed g c.uc, first, n, (hb.consumed_tail hp).symm,
      { hmsg with chain := { hmsg.chain with } }, hclose⟩

/-- Every pass keeps the invariant. -/
theorem ucRule (T : Traffic) : PassRule (fun (g : ℕ) _ => g)
    (fun g state pkt c => UcInv T g state pkt c.uc) (fun g state pkt c => UcInv T g state pkt c.uc)
    (fun g c => UcIdle T g c.uc) where
  getReq _ _ _ h := getReq_uc h
  chkPsn _ _ _ h := respCheckPsn_uc h
  chkOpSeq _ _ _ h := checkOpSeq_uc h
  chkOpValid _ _ _ h := checkOpValid_uc h
  chkResource _ _ _ h := checkResource_uc h
  chkLength _ _ _ h := h
  chkRkey _ _ _ h := checkRkey_uc h
  execute _ _ _ h := execute_uc h
  complete _ _ _ h := respDoComplete_uc h
  readReply _ _ _ h := h.2.elim
  acknowledge _ _ _ h := h.2.elim
  cleanup _ _ _ h := cleanup_uc h
  duplicateRequest _ _ _ h := h.2.elim
  errPsn _ _ _ h := h.2.elim
  errAc g state pkt c syn status hclass h := by
    cases state with
    | errMalformedWqe =>
      cases hclass
      obtain ⟨hb, p, rfl, hp⟩ := h
      show UcInv T g .complete (some p) { c.uc with status := .locQpOpErr, gotoError := true }
      exact ⟨{ hb with }, fun hsucc => (nomatch hsucc),
        fun _ => ⟨p, rfl, hp, fun herr => (nomatch herr)⟩⟩
    | errTooManyRdmaAtmReq | errMissingOpcodeFirst | errMissingOpcodeLastC | errUnsupportedOpcode
    | errMisalignedAtomic => exact h.2.elim
    | _ => cases hclass
  errD1e _ _ _ h := doClassD1eError_uc h
  errRnr _ _ _ h := respErrRnr_uc h
  errRkey _ _ _ h := respErrRkey_uc h
  errLength _ _ _ h := respErrLength_uc h
  toError _ _ _ _ _ h := ⟨h.1, trivial⟩
  leave g state pkt c hleave h := by
    rcases hleave with ⟨herr, rfl | rfl⟩ | ⟨hneeds, rfl⟩
    · exact ⟨h.1, herr, fun hne => h.2 hne herr⟩
    · exact ⟨h.1, herr, fun hne => h.2 hne herr⟩
    · obtain ⟨hb, hat⟩ := h
      cases state with
      | chkPsn | chkOpSeq | chkOpValid | chkRkey | execute | errRnr =>
        obtain ⟨p, hp, -⟩ := hat
        cases hp
      | readReply | acknowledge | duplicateRequest | errPsnOutOfSeq => exact hat.elim
      | _ => cases hneeds
  error g pkt c h := by
    rw [rxeQpError_ucView]
    exact ⟨{ h.1 with state := nofun }, rfl, fun hne => absurd rfl hne⟩
  reset _ _ _ h := h.2.elim

end Passes

/-! ### Runs -/

/-- A change that the invariant does not see, but for the state of the QP. -/
structure Carry (g : ℕ) (v : UcView) (g' : ℕ) (v' : UcView) : Prop where
  count : consumed g' v' = consumed g v
  head? : ∀ p, v.reqPkts.head? = some p → v'.reqPkts.head? = some p
  state : v'.state = v.state ∨ v'.state = .error
  psn : v'.psn = v.psn
  opcode : v'.opcode = v.opcode
  dropMsg : v'.dropMsg = v.dropMsg
  gotoError : v'.gotoError = v.gotoError
  status : v'.status = v.status
  srq : v'.srq = none ↔ v.srq = none
  execs : v'.execs = v.execs
  head : Head v → Head v'
  part : ∀ P, Part v P → Part v' P
  wqe : v.recvWqe.isSome → v'.recvWqe.isSome

section Carry

variable {T : Traffic} {g g' : ℕ} {v v' : UcView} (hc : Carry g v g' v')
include hc

theorem Carry.ne_error (h : v'.state ≠ .error) : v.state ≠ .error := by
  rcases hc.state with hs | hs
  · exact hs ▸ h
  · exact absurd hs h

theorem Carry.chain (h : Chain T v K first n) : Chain T v' K first n :=
  ⟨h.begins, hc.execs ▸ h.execs⟩

theorem Carry.inMessage (h : InMessage T v K first n) : InMessage T v' K first n :=
  ⟨hc.chain h.chain, h.pos, hc.psn ▸ h.psn, fun hK => hc.part _ (h.part hK)⟩

theorem Carry.going (h : Going T v t) : Going T v' t := by
  intro K hK hdrop
  obtain ⟨first, n, hmsg, hclose⟩ := h K (hc.opcode ▸ hK) (hc.dropMsg ▸ hdrop)
  exact ⟨first, n, hc.inMessage hmsg, hclose⟩

theorem Carry.settled (h : Settled T g v) : Settled T g' v' := by
  refine ⟨hc.head h.head, fun K hK hdrop => ?_⟩
  obtain ⟨t, first, n, ht, hmsg, hclose⟩ := h.going K (hc.opcode ▸ hK) (hc.dropMsg ▸ hdrop)
  exact ⟨t, first, n, ht.trans hc.count.symm, hc.inMessage hmsg, hclose⟩

theorem Carry.fits {first n : ℕ} (h : Fits T g v p K first n) :
    Fits T g' v' p K first n where
  chain := hc.chain h.chain
  pkt := h.pkt
  pos := hc.count ▸ h.pos
  opcode := h.opcode
  opened := hc.opcode ▸ h.opened
  psn := hc.psn ▸ h.psn

theorem Carry.sequenced (h : Sequenced T g v p) : Sequenced T g' v' p := by
  intro K hK
  rcases h K (hc.opcode ▸ hK) with hstart | ⟨first, n, hmsg, hpos⟩
  · exact Or.inl hstart
  · exact Or.inr ⟨first, n, hc.inMessage hmsg, hc.count ▸ hpos⟩

theorem Carry.ucAt {state : RespState} (h : UcAt T g v state pkt) :
    UcAt T g' v' state pkt := by
  have hgoing : Going T v (consumed g v) → Going T v' (consumed g' v') := by
    rw [hc.count]
    exact hc.going
  -- each clause only mentions what the change carries over
  cases state with
  | getReq => exact ⟨hc.gotoError ▸ h.1, fun hne => hc.settled (h.2 (hc.ne_error hne))⟩
  | chkPsn =>
    obtain ⟨p, rfl, hp, herr, hs⟩ := h
    exact ⟨p, rfl, hc.head? p hp, hc.gotoError ▸ herr, hc.settled hs⟩
  | chkOpSeq | errMissingOpcodeLastD1e =>
    obtain ⟨p, rfl, hp, herr, hhead, hseq⟩ := h
    exact ⟨p, rfl, hc.head? p hp, hc.gotoError ▸ herr, hc.head hhead, hc.sequenced hseq⟩
  | chkOpValid =>
    obtain ⟨p, rfl, hp, herr, hhead, K, first, n, hfits, hpart⟩ := h
    exact ⟨p, rfl, hc.head? p hp, hc.gotoError ▸ herr, hc.head hhead, K, first, n, hc.fits hfits,
      fun hn hK => hc.part _ (hpart hn hK)⟩
  | chkResource =>
    intro hne
    obtain ⟨p, rfl, hp, herr, hhead, K, first, n, hfits, hpart⟩ := h (hc.ne_error hne)
    exact ⟨p, rfl, hc.head? p hp, hc.gotoError ▸ herr, hc.head hhead, K, first, n, hc.fits hfits,
      fun hn hK => hc.part _ (hpart hn hK)⟩
  | chkLength | chkRkey | execute =>
    obtain ⟨p, rfl, hp, herr, hhead, K, first, n, hready⟩ := h
    exact ⟨p, rfl, hc.head? p hp, hc.gotoError ▸ herr, hc.head hhead, K, first, n,
      hc.fits hready.next, fun hK => hc.part _ (hready.part hK),
      fun hrwr => hc.wqe (hready.wqe hrwr)⟩
  | errRnr | errRkeyViolation =>
    obtain ⟨p, rfl, hp, herr, hhead⟩ := h
    exact ⟨p, rfl, hc.head? p hp, hc.gotoError ▸ herr, hc.head hhead⟩
  | errLength =>
    obtain ⟨p, rfl, hp, herr, hhead, hlen⟩ := h
    exact ⟨p, rfl, hc.head? p hp, hc.gotoError ▸ herr, hc.head hhead, hlen.imp hc.srq.2 hgoing⟩
  | errMalformedWqe =>
    obtain ⟨p, rfl, hp⟩ := h
    exact ⟨p, rfl, hc.head? p hp⟩
  | complete =>
    refine ⟨fun hsucc => ?_, fun hne => ?_⟩
    · obtain ⟨p, rfl, K, first, last, hmsg, hp, hexecs, hpart⟩ := h.1 (hc.status ▸ hsucc)
      exact ⟨p, rfl, K, first, last, hmsg, hp, hc.execs ▸ hexecs, fun hK => hc.part _ (hpart hK)⟩
    · obtain ⟨p, rfl, hp, hafter⟩ := h.2 (hc.ne_error hne)
      refine ⟨p, rfl, hc.head? p hp, fun herr => ?_⟩
      obtain ⟨hnone, hgo⟩ := hafter (hc.gotoError ▸ herr)
      refine ⟨fun hsrq => ?_, hgoing hgo⟩
      obtain ⟨hopen, hwqe⟩ := hnone (hc.srq.1 hsrq)
      exact ⟨hc.opcode ▸ hopen, hc.wqe hwqe⟩
  | cleanup =>
    intro hne
    obtain ⟨p, rfl, hp, hafter⟩ := h (hc.ne_error hne)
    refine ⟨p, rfl, hc.head? p hp, fun herr => ?_⟩
    obtain ⟨hhead, hgo⟩ := hafter (hc.gotoError ▸ herr)
    exact ⟨hc.head hhead, hgoing hgo⟩
  | done | exit =>
    exact fun hne herr => hc.settled (h (hc.ne_error hne) (hc.gotoError ▸ herr))
  | errCqOverflow | error => trivial
  | _ => exact h

end Carry

/-- The regions and the bytes of a receive buffer stay as they are. -/
structure Untouched (dev dev' : Dev) (pd : ℕ) (sges : List Sge) : Prop where
  regions : ∀ sge ∈ sges, localMem dev' pd sge.lkey = localMem dev pd sge.lkey
  bytes : ∀ p a, bufAddr dev pd sges p = some a → dev'.byte a = dev.byte a

/-- The packets arrive as the traffic says; a receive WQE in use belongs to the driver; the
WQEs of the SRQ have been posted. -/
def UcOk (T : Traffic) (k : RespSys × ℕ) : RespAct → Prop
  | .recv p => p = T.pkt (T.sched k.2)
  | .env dev _ _ => ∀ w, recvWqe k.1.ctx.qp = some w →
    Untouched k.1.ctx.dev dev k.1.ctx.qp.pd w.dma.sge
  | .shareSrq srq => ∀ w ∈ srq.queue.live, ∃ wr, w = initRecvWqe wr
  | _ => True

/-- The number of packets delivered. -/
def delivered (g : ℕ) (_ : Ctx) : RespAct → ℕ
  | .recv _ => g + 1
  | _ => g

/-- A step of a run, with the number of packets delivered. -/
def ucStep : RespSys × ℕ → RespAct → Option (RespSys × ℕ) := ghostPass (fun g _ => g) delivered

/-- A UC QP that is ready to receive and has received nothing. -/
structure FreshUc (c : Ctx) : Prop where
  uc : c.qp.type = .uc
  res : c.qp.resp.res = none
  state : c.qp.resp.state ≠ .reset
  noPkts : c.qp.reqPkts = []
  noWqe : c.qp.resp.wqe = none
  noOpcode : c.qp.resp.opcode = none
  noError : c.qp.resp.gotoError = false
  rq : ∀ w ∈ c.qp.rq.live, ∃ wr, w = initRecvWqe wr
  srq : ∀ srq, c.qp.srq = some srq → ∀ w ∈ srq.queue.live, ∃ wr, w = initRecvWqe wr

section Run

variable {T : Traffic} {g : ℕ} {c : Ctx}

theorem fresh_of_posted (h : ∃ wr, w = initRecvWqe wr) : w.fresh := by
  obtain ⟨wr, rfl⟩ := h
  exact initRecvWqe_fresh wr

theorem recv_uc (hb : Base T g c.uc) :
    Base T (g + 1) (rxeRespQueuePkt c (T.pkt (T.sched g))).uc ∧
      Carry g c.uc (g + 1) (rxeRespQueuePkt c (T.pkt (T.sched g))).uc := by
  have hview : (rxeRespQueuePkt c (T.pkt (T.sched g))).uc =
      { c.uc with reqPkts := c.uc.reqPkts ++ [T.pkt (T.sched g)] } :=
    uc_said { c with qp.reqPkts := c.qp.reqPkts ++ [T.pkt (T.sched g)] }
      (silent_one (e := .runResp) rfl)
  rw [hview]
  refine ⟨{ hb with queue := ?_ },
    ⟨?_, fun p hp => ?_, Or.inl rfl, rfl, rfl, rfl, rfl, rfl, Iff.rfl, rfl,
    fun h => h, fun _ h => h, fun h => h⟩⟩
  · obtain ⟨pre, hpre⟩ := hb.queue
    refine ⟨pre, ?_⟩
    rw [← List.append_assoc, hpre, Traffic.arrived, Traffic.arrived, List.range_succ,
      List.map_append]
    rfl
  · unfold consumed
    rw [List.length_append, List.length_singleton, Nat.add_sub_add_right]
  · rw [List.head?_append, hp]
    rfl

/-- Unused WQEs are put behind those in a receive queue. -/
structure Grown (q q' : RingBuf RecvWqe) : Prop where
  first : q.live ≠ [] → q'.live ≠ [] ∧ q'.get? 0 = q.get? 0
  tail : (∀ w ∈ q.live.tail, w.fresh) → ∀ w ∈ q'.live.tail, w.fresh
  head : (∀ w, q.live.head? = some w → w.fresh) → ∀ w, q'.live.head? = some w → w.fresh
  fits : (∀ w ∈ q.live, w.dma.length ≤ sgeSum w.dma.sge) →
    ∀ w ∈ q'.live, w.dma.length ≤ sgeSum w.dma.sge

theorem rxePostRecv_grown (c : Ctx) (wrs : List RecvWr) :
    ∃ rq, (rxePostRecv c wrs).2 = { c with qp.rq := rq } ∧ Grown c.qp.rq rq := by
  obtain ⟨rq, hc, hlive⟩ := rxePostRecv_live c wrs
  generalize takenRecvs c (rxePostRecv c wrs).2 wrs = new at hlive
  have hnew : ∀ w ∈ new.map initRecvWqe, w.fresh := by
    intro w hw
    obtain ⟨wr, -, rfl⟩ := List.mem_map.1 hw
    exact initRecvWqe_fresh wr
  refine ⟨rq, hc, ?_⟩
  -- into an empty queue, or behind what is there
  cases hold : c.qp.rq.live with
  | nil =>
    rw [hold, List.nil_append] at hlive
    rw [← hlive] at hnew
    exact
      { first := fun hne => absurd hold hne
        tail := fun _ w hw => hnew w (List.mem_of_mem_tail hw)
        head := fun _ w hw => hnew w (List.mem_of_mem_head? hw)
        fits := fun _ w hw => (hnew w hw).2 }
  | cons w₀ rest =>
    rw [hold, List.cons_append] at hlive
    refine ⟨fun _ => ⟨?_, ?_⟩, fun h w hw => ?_, fun h w hw => ?_, fun h w hw => ?_⟩
    · rw [hlive]
      exact List.cons_ne_nil _ _
    · rw [RingBuf.get?_head hlive, RingBuf.get?_head hold]
    · rw [hlive, List.tail_cons] at hw
      rw [hold, List.tail_cons] at h
      exact (List.mem_append.1 hw).elim (h w) (hnew w)
    · rw [hlive] at hw
      rw [hold] at h
      exact h w hw
    · rw [hlive, ← List.cons_append, ← hold] at hw
      exact (List.mem_append.1 hw).elim (h w) fun hw => (hnew w hw).2

theorem postRecv_uc (hb : Base T g c.uc) (wrs : List RecvWr) :
    Base T g (rxePostRecv c wrs).2.uc ∧ Carry g c.uc g (rxePostRecv c wrs).2.uc := by
  obtain ⟨rq, hc, hgrown⟩ := rxePostRecv_grown c wrs
  rw [hc]
  show Base T g { c.uc with rq } ∧ Carry g c.uc g { c.uc with rq }
  -- a WQE in use is in front of the new ones
  have hrecv : UcView.recvWqe { c.uc with rq } = c.uc.recvWqe := by
    unfold UcView.recvWqe
    dsimp only
    split
    · rfl
    · next i hi =>
      have href := hb.ref _ hi
      split at href
      · cases href
      · obtain ⟨⟨⟩, hne⟩ := href
        exact (hgrown.first hne).2
    · rfl
  refine ⟨{ hb with ref := ?_, tail := hgrown.tail hb.tail, fits := hgrown.fits hb.fits },
    ⟨rfl, fun _ h => h, Or.inl rfl, rfl, rfl, rfl, rfl, rfl, Iff.rfl, rfl, ?_, ?_, ?_⟩⟩
  · intro r hr
    have href := hb.ref r hr
    split at href
    · next hs =>
      rw [if_pos hs]
      exact href
    · next hs =>
      rw [if_neg hs]
      exact ⟨href.1, (hgrown.first href.2).1⟩
  · intro hhead hsrq
    exact (hhead hsrq).imp (fun hfresh => ⟨hfresh.1, hgrown.head hfresh.2⟩) id
  · intro P hpart w hw
    exact hpart w (hrecv ▸ hw)
  · rw [hrecv]
    exact id

theorem error_uc (hb : Base T g c.uc) :
    Base T g (rxeQpError c).uc ∧ Carry g c.uc g (rxeQpError c).uc := by
  rw [rxeQpError_ucView]
  exact ⟨{ hb with state := nofun }, ⟨rfl, fun _ h => h, Or.inr rfl, rfl, rfl, rfl, rfl, rfl,
    Iff.rfl, rfl, fun h => h, fun _ h => h, fun h => h⟩⟩

theorem env_uc {dev : Dev} {skb cq : List Bool} (hb : Base T g c.uc)
    (hok : ∀ w, recvWqe c.qp = some w → Untouched c.dev dev c.qp.pd w.dma.sge) :
    Base T g { c with dev, skb, cq }.uc ∧ Carry g c.uc g { c with dev, skb, cq }.uc := by
  refine ⟨{ hb with }, ⟨rfl, fun _ h => h, Or.inl rfl, rfl, rfl, rfl, rfl, rfl, Iff.rfl, rfl,
    fun h => h, fun P hpart w hw => ?_, fun h => h⟩⟩
  have htook := hpart w hw
  have hkept := hok w hw
  refine { htook with filled := fun hbuf => ?_ }
  -- the driver owns the buffer of a WQE in use
  have hold : BufOk c.dev c.qp.pd w.dma.sge :=
    hbuf.congr fun sge hsge => (hkept.regions sge hsge).symm
  exact (htook.filled hold).congr hkept.regions hkept.bytes

theorem shareSrq_uc (hb : Base T g c.uc)
    (hok : ∀ w ∈ srq.queue.live, ∃ wr, w = initRecvWqe wr) :
    Base T g { c with qp.srq := c.qp.srq.map fun _ => srq }.uc ∧
      Carry g c.uc g { c with qp.srq := c.qp.srq.map fun _ => srq }.uc := by
  have hnone : (c.qp.srq.map fun _ => srq) = none ↔ c.qp.srq = none := Option.map_eq_none_iff
  refine ⟨{ hb with ref := fun r hr => ?_, srq := fun s hs w hw => ?_ },
    ⟨rfl, fun _ h => h, Or.inl rfl, rfl, rfl, rfl, rfl, rfl, hnone, rfl,
      fun h hs => h (hnone.1 hs), fun _ h => h, fun h => h⟩⟩
  · have href := hb.ref r hr
    show if (c.qp.srq.map fun _ => srq).isSome then _ else _
    rw [Option.isSome_map]
    exact href
  · obtain ⟨s₀, -, rfl⟩ := Option.map_eq_some_iff.1 hs
    exact fresh_of_posted (hok w hw)

theorem change_uc {sys : RespSys} {f : Ctx → Ctx} (hf : a.change = some f)
    (hok : UcOk T (sys, g) a) (hb : Base T g sys.ctx.uc) :
    Base T (delivered g sys.ctx a) (f sys.ctx).uc ∧
      Carry g sys.ctx.uc (delivered g sys.ctx a) (f sys.ctx).uc := by
  cases a with
  | call | pass => cases hf
  | recv p =>
    cases hf
    cases hok
    exact recv_uc hb
  | postRecv wrs =>
    cases hf
    exact postRecv_uc hb wrs
  | error =>
    cases hf
    exact error_uc hb
  | env dev skb cq =>
    cases hf
    exact env_uc hb hok
  | shareSrq srq =>
    cases hf
    exact shareSrq_uc hb hok

theorem FreshUc.idle (h : FreshUc c) : UcIdle T 0 c.uc := by
  have hfresh : ∀ w ∈ c.qp.rq.live, w.fresh := fun w hw => fresh_of_posted (h.rq w hw)
  refine ⟨⟨⟨h.uc, h.res, h.state, fun r hr => ?_, fun w hw => hfresh w (List.mem_of_mem_tail hw),
    fun w hw => (hfresh w hw).2, fun srq hs w hw => fresh_of_posted (h.srq srq hs w hw)⟩, ?_⟩,
    h.noError,
    fun _ => ⟨fun _ => Or.inl ⟨?_, fun w hw => hfresh w (List.mem_of_mem_head? hw)⟩,
      fun K hK => ?_⟩⟩
  · rw [show c.uc.wqe = none from h.noWqe] at hr
    cases hr
  · rw [show c.uc.reqPkts = [] from h.noPkts]
    exact List.nil_suffix
  · rw [show c.uc.opcode = none from h.noOpcode]
    nofun
  · rw [show c.uc.opcode = none from h.noOpcode] at hK
    cases hK

open Trace in
theorem ucInv_reach {c₀ : Ctx} {k : RespSys × ℕ} (h₀ : FreshUc c₀)
    (hreach : Reach ucStep (UcOk T) (.idle c₀, 0) k) :
    k.1.Holds (fun state pkt c => UcInv T k.2 state pkt c.uc) fun c => UcIdle T k.2 c.uc := by
  have hstart : ((.idle c₀, 0) : RespSys × ℕ).1.Holds (fun state pkt c => UcInv T 0 state pkt c.uc)
      fun c => UcIdle T 0 c.uc := h₀.idle
  refine (ucRule T).reach (fun _ _ _ h => h) ?_ ?_ ?_ hstart hreach
  · intro g c h
    unfold respEnter
    dsimp only
    split
    · exact h
    · rw [if_neg (show ¬ c.qp.resp.state = .reset from h.1.state)]
      exact h
  · intro g s a f hf hok h
    obtain ⟨hb, hc⟩ := change_uc hf hok h.1
    exact ⟨hb, hc.ucAt h.2⟩
  · intro g c a f hf hok h
    obtain ⟨hb, hc⟩ := change_uc hf hok h.1
    exact ⟨hb, hc.gotoError ▸ h.2.1, fun hne => hc.settled (h.2.2 (hc.ne_error hne))⟩

theorem recvCqes_change {f : Ctx → Ctx} (hf : a.change = some f) (c : Ctx) :
    recvCqes (f c).out = recvCqes c.out := by
  rcases RespAct.change_frame hf c with hc | ⟨pkts, rq, srq, dev, skb, cq, es, hes, hc⟩
  · obtain ⟨req, sq, respPkts, cq, es, hes, herr⟩ := rxeQpError_frame c
    rw [hc, herr]
    exact recvCqes_said c hes
  · rw [hc]
    refine recvCqes_said c ?_
    rcases hes with rfl | rfl
    · exact silent_nil
    · exact silent_one rfl

theorem recvCqe_pass {sys sys' : RespSys} {wc : Wc} (hstep : respPass sys a = some sys')
    (hpost : recvCqes sys'.ctx.out = recvCqes sys.ctx.out ++ [wc]) :
    ∃ s, sys = .busy s ∧ s.state = .complete ∧ sys' = .ofPass (respStep s) := by
  have hquiet : recvCqes sys'.ctx.out ≠ recvCqes sys.ctx.out := by
    rw [hpost]
    simp
  obtain ⟨c, rfl, rfl, rfl⟩ | ⟨s, rfl, rfl, rfl⟩ | ⟨f, hf, rfl⟩ := respPass_cases hstep
  · refine absurd ?_ hquiet
    unfold respEnter
    dsimp only
    split <;> rfl
  -- of the passes only `complete` posts a receive completion
  · by_cases hstate : s.state = .complete
    · exact ⟨s, rfl, hstate, rfl⟩
    · exact absurd (respStep_recvCqes hstate) hquiet
  · rw [RespSys.ctx_map, recvCqes_change hf] at hquiet
    exact absurd rfl hquiet

theorem makeRecvCqe_status (qp : Qp) (w : RecvWqe) (pkt : Option Pkt) :
    (makeRecvCqe qp w pkt).status = qp.resp.status := by
  unfold makeRecvCqe
  split
  · next _ hsucc => exact hsucc.symm
  · rfl

open Trace in
/-- A receive completion without an error is posted for all packets of one message, the last
packets executed, in the order of the stream.  For a SEND, the buffer starts with their
payloads, if no two bytes of it share an address, and the completion reports their length. -/
theorem uc_no_splice (T : Traffic) (c₀ : Ctx) (k k' : RespSys × ℕ) (a : RespAct) (wc : Wc)
    (h₀ : FreshUc c₀) (hreach : Reach ucStep (UcOk T) (.idle c₀, 0) k)
    (hstep : ucStep k a = some k')
    (hpost : recvCqes k'.1.ctx.out = recvCqes k.1.ctx.out ++ [wc]) (hsucc : wc.status = .success) :
    ∃ K first last, T.Message K first last ∧
      (∃ pre, execPkts k'.1.ctx.out = pre ++ (List.range' first (last + 1 - first)).map T.pkt) ∧
      (K = .send → ∃ w, recvWqe k.1.ctx.qp = some w ∧ wc.wrId = w.wrId ∧
        wc.byteLen = (T.payload first (last + 1 - first)).length ∧
        (BufOk k'.1.ctx.dev k'.1.ctx.qp.pd w.dma.sge →
          Filled k'.1.ctx.dev k'.1.ctx.qp.pd w.dma.sge (T.payload first (last + 1 - first)))) := by
  have hinv := ucInv_reach h₀ hreach
  obtain ⟨sys, g⟩ := k
  obtain ⟨sys', hsys', rfl⟩ := Option.map_eq_some_iff.1 hstep
  obtain ⟨s, rfl, hstate, rfl⟩ := recvCqe_pass hsys' hpost
  obtain ⟨state, pkt, c⟩ := s
  cases hstate
  obtain ⟨hb, hdone, -⟩ : UcInv T g .complete pkt c.uc := hinv
  change recvCqes (respDoComplete c pkt).2.out = recvCqes c.out ++ [wc] at hpost
  show ∃ K first last, T.Message K first last ∧
      (∃ pre, execPkts (respDoComplete c pkt).2.out = pre ++ _) ∧
      (K = .send → ∃ w, recvWqe c.qp = some w ∧ wc.wrId = w.wrId ∧ wc.byteLen = _ ∧
        (BufOk (respDoComplete c pkt).2.dev (respDoComplete c pkt).2.qp.pd w.dma.sge →
          Filled (respDoComplete c pkt).2.dev (respDoComplete c pkt).2.qp.pd w.dma.sge _))
  rcases respDoComplete_cases c pkt with ⟨-, heq⟩ | ⟨w, cq, hw, heq | heq⟩ <;> rw [heq] at hpost ⊢
  · simp at hpost
  · -- the completion that was posted
    obtain rfl : makeRecvCqe c.qp w pkt = wc := by
      rw [recvCqes_append] at hpost
      exact List.head_eq_of_cons_eq (List.append_cancel_left hpost)
    rw [makeRecvCqe_status] at hsucc
    obtain ⟨p, rfl, K, first, last, hmsg, -, hexecs, hpart⟩ := hdone hsucc
    refine ⟨K, first, last, hmsg, ?_, fun hK => ⟨w, hw, ?_, ?_, ?_⟩⟩
    · obtain ⟨pre, hpre⟩ := hexecs
      refine ⟨pre, ?_⟩
      rw [execPkts_append, show execPkts [_] = [] from rfl, List.append_nil]
      exact hpre
    · unfold makeRecvCqe
      rw [hsucc]
    · have hat := ((hpart hK) w hw).cursor.resid
      unfold makeRecvCqe
      rw [hsucc]
      dsimp only
      omega
    · exact ((hpart hK) w hw).filled
  · rw [recvCqes_said c (silent_one rfl)] at hpost
    simp at hpost

end Run

/-- A SEND of two packets. -/
def twoPackets : Traffic where
  pkt i :=
    { opcode := if i = 0 then .ucSendFirst else .ucSendLast, psn := psnMask (0 + i)
      payload := [7, 7] }
  base := 0
  psn _ := rfl
  uc i := by
    split <;> rfl
  sched n := n
  near n := by omega

/-- All of memory, under the local key 256. -/
def localRegion : Mem :=
  { pd := 0, lkey := 256, rkey := 256, state := .valid, type := .dma, iova := 0, length := 0,
    offset := 0, access := [.localWrite], pageShift := 0, pageMask := 0, mapShift := 0,
    mapMask := 0, map := [] }

/-- A UC QP with one receive posted. -/
def ucQp : Ctx where
  qp :=
    { type := .uc, sq := ⟨[], []⟩, resp := { state := .ready }
      rq := ⟨[initRecvWqe { wrId := 9, sgList := [⟨64, 8, 256⟩] }], []⟩ }
  dev := { mem := fun i => if i = 1 then some localRegion else none }

/-- The completion of the SEND. -/
def ucWc : Wc := { wrId := 9, opcode := .recv, byteLen := 4, grh := true, portNum := 1 }

open Trace in
/-- The two packets arrive and are executed; the completion reports four bytes. -/
theorem uc_no_splice_two :
    ∃ k k', Reach ucStep (UcOk twoPackets) (.idle ucQp, 0) k ∧ ucStep k .pass = some k' ∧
      recvCqes k'.1.ctx.out = recvCqes k.1.ctx.out ++ [ucWc] ∧
      ∃ K first last, twoPackets.Message K first last ∧
        ∃ pre, execPkts k'.1.ctx.out =
          pre ++ (List.range' first (last + 1 - first)).map twoPackets.pkt := by
  have hqueued : Reach ucStep (UcOk twoPackets) (.idle ucQp, 0) _ :=
    .next (.next .start (a := .recv (twoPackets.pkt 0)) rfl rfl)
      (a := .recv (twoPackets.pkt 1)) rfl rfl
  -- eighteen passes, of which the first ten make up a call
  have hrun : (List.foldlM ucStep
      (.idle (rxeRespQueuePkt (rxeRespQueuePkt ucQp (twoPackets.pkt 0)) (twoPackets.pkt 1)), 2)
      (.call :: List.replicate 10 .pass ++ .call :: List.replicate 8 .pass)).bind
      (fun k => (ucStep k .pass).map fun k' => (recvCqes k.1.ctx.out, recvCqes k'.1.ctx.out)) =
        some ([], [ucWc]) := by
    decide +kernel
  obtain ⟨k, hk, hrun⟩ := Option.bind_eq_some_iff.1 hrun
  obtain ⟨k', hk', hcqes⟩ := Option.map_eq_some_iff.1 hrun
  have hreach := hqueued.foldlM _ (by
    intro s a ha
    cases a with
    | call | pass => trivial
    | _ => simp at ha) hk
  have hpost : recvCqes k'.1.ctx.out = recvCqes k.1.ctx.out ++ [ucWc] := by
    rw [(Prod.mk.inj hcqes).1, (Prod.mk.inj hcqes).2]
    rfl
  obtain ⟨K, first, last, hmsg, hexecs, -⟩ := uc_no_splice twoPackets ucQp k k' .pass ucWc
    ⟨rfl, rfl, nofun, rfl, rfl, rfl, rfl, fun w hw => ⟨_, List.mem_singleton.1 hw⟩,
      nofun⟩ hreach hk'
    hpost rfl
  exact ⟨k, k', hreach, hk', hpost, K, first, last, hmsg, hexecs⟩

end Rxe
