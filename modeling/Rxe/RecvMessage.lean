/-
The message in progress at a responder and the receive WQE it is stored in.

The packets of a SEND arrive one by one, between them packets are dropped, answered from a
resource or refused, and the receive queue is filled.  A pass of the responder keeps the
following, for every type of QP and for all traffic that `rxe_rcv` lets through:

* `message` — the packets executed since the last one that starts a message;
* `RecvSound` — WQEs that are not in use have taken no data;
* `InStep` — the WQE in use has taken the packets of the SEND in progress and nothing else;
* `recvMsgRule` — the rule for the passes, `receives_reach` the invariant for runs.

The replay of a read ends with `resp.opcode` and `resp.psn` set back.  In the middle of a
SEND this makes the responder take the SEND a second time, behind what the WQE has taken
already; such a replay is left out (`MessageOk`).
-/
import Rxe.PassFrame
import Rxe.UcStream

namespace Rxe

variable {p : Pkt} {sys : RespSys}

/-! ### Packets and messages -/

def sendFirst : List Opcode := [.rcSendFirst, .ucSendFirst]

def sendMiddle : List Opcode := [.rcSendMiddle, .ucSendMiddle]

def sendLast : List Opcode :=
  [.rcSendLast, .rcSendLastWithImmediate, .rcSendLastInv, .ucSendLast, .ucSendLastWithImmediate]

def sendOnly : List Opcode :=
  [.rcSendOnly, .rcSendOnlyWithImmediate, .rcSendOnlyInv, .ucSendOnly, .ucSendOnlyWithImmediate,
    .udSendOnly, .udSendOnlyWithImmediate]

/-- A SEND was begun and not ended by a packet with this opcode. -/
def sendOpen : Option Opcode → Bool
  | some .rcSendFirst | some .rcSendMiddle | some .ucSendFirst | some .ucSendMiddle => true
  | _ => false

/-- The test of `check_type_state` on the opcode. -/
def QpType.carries : QpType → Opcode → Bool
  | .rc, o => o.transport = .rc
  | .uc, o => o.transport = .uc
  | .ud, o | .smi, o | .gsi, o => o.transport = .ud

/-- The packet continues a message. -/
def Pkt.continues (p : Pkt) : Bool :=
  p.opcode ∈ rcSendNext ++ rcWriteNext ++ ucSendNext ++ ucWriteNext

/-- The packet continues a SEND. -/
def Pkt.continuesSend (p : Pkt) : Bool := p.mask.send && !p.mask.rwr

/-- The packets of the message executed last, of all packets executed. -/
def message (ps : List Pkt) : List Pkt :=
  ps.foldl (fun msg p => if p.continues then msg ++ [p] else [p]) []

theorem message_concat (ps : List Pkt) (p : Pkt) :
    message (ps ++ [p]) = if p.continues then message ps ++ [p] else [p] := by
  unfold message
  rw [List.foldl_append]
  rfl

/-- The first packets of a SEND of several packets. -/
def SendBegun (msg : List Pkt) : Prop :=
  ∃ first rest, msg = first :: rest ∧ first.opcode ∈ sendFirst ∧ ∀ q ∈ rest, q.opcode ∈ sendMiddle

/-- All packets of a SEND, the last one `p`. -/
def SendMessage (msg : List Pkt) (p : Pkt) : Prop :=
  (msg = [p] ∧ p.opcode ∈ sendOnly) ∨
    ∃ begun, SendBegun begun ∧ msg = begun ++ [p] ∧ p.opcode ∈ sendLast

/-- The number of bytes a SEND packet puts into the receive WQE: with a GRH for datagrams. -/
def Pkt.stored (type : QpType) (p : Pkt) : ℕ :=
  if type = .ud ∨ type = .smi ∨ type = .gsi then p.grh.length + p.payload.length
  else p.payload.length

/-- The number of bytes the packets of a SEND put into the receive WQE. -/
def msgBytes (type : QpType) (msg : List Pkt) : ℕ := (msg.map (Pkt.stored type)).sum

theorem msgBytes_concat (type : QpType) (msg : List Pkt) (p : Pkt) :
    msgBytes type (msg ++ [p]) = msgBytes type msg + p.stored type := by
  unfold msgBytes
  rw [List.map_append, List.sum_append]
  exact congrArg (_ + ·) (Nat.add_zero _)

theorem msgBytes_single (type : QpType) (p : Pkt) : msgBytes type [p] = p.stored type :=
  Nat.add_zero _

/-! ### Opcodes -/

/-- Where a SEND packet stands in its message. -/
inductive SendPlace (p : Pkt) : Prop
  | first (h : p.opcode ∈ sendFirst) (hrwr : p.mask.rwr) (hnew : p.continues = false)
      (hcomp : p.mask.comp = false) (hopen : sendOpen (some p.opcode))
  | middle (h : p.opcode ∈ sendMiddle) (hrwr : p.mask.rwr = false) (hcont : p.continues)
      (hcomp : p.mask.comp = false) (hopen : sendOpen (some p.opcode))
  | last (h : p.opcode ∈ sendLast) (hrwr : p.mask.rwr = false) (hcont : p.continues)
      (hcomp : p.mask.comp) (hopen : sendOpen (some p.opcode) = false)
  | only (h : p.opcode ∈ sendOnly) (hrwr : p.mask.rwr) (hnew : p.continues = false)
      (hcomp : p.mask.comp) (hopen : sendOpen (some p.opcode) = false)

theorem sendPlace (h : p.mask.send) : SendPlace p := by
  have hfirst := @SendPlace.first p
  have hmiddle := @SendPlace.middle p
  have hlast := @SendPlace.last p
  have honly := @SendPlace.only p
  unfold Pkt.continues Pkt.mask at *
  generalize p.opcode = o at *
  cases o <;> first
    | exact absurd h Bool.false_ne_true
    | exact hfirst (by decide) rfl (by decide) rfl rfl
    | exact hmiddle (by decide) rfl (by decide) rfl rfl
    | exact hlast (by decide) rfl (by decide) rfl rfl
    | exact honly (by decide) rfl (by decide) rfl rfl

theorem not_sendOpen {o : Option Opcode} {P : Prop} (h : sendOpen o = false)
    (hopen : sendOpen o) : P :=
  absurd (h.symm.trans hopen) Bool.false_ne_true

theorem sendOpen_of_not_send (h : p.mask.send = false) :
    sendOpen (some p.opcode) = false := by
  unfold Pkt.mask at h
  generalize p.opcode = o at *
  cases o <;> first | rfl | exact absurd h.symm Bool.false_ne_true

/-- `check_op_seq` compares opcodes of the type of the QP; for a request that fits the type
the comparison with the packets that continue a SEND is the one of the masks. -/
theorem continuesSend_rc (h : p.opcode.transport = .rc) :
    p.continuesSend = decide (p.opcode ∈ rcSendNext) := by
  unfold Pkt.continuesSend Pkt.mask
  generalize p.opcode = o at *
  cases o <;> first | decide | rfl | exact absurd h (by decide)

theorem continuesSend_uc (h : p.opcode.transport = .uc) :
    p.continuesSend = decide (p.opcode ∈ ucSendNext) := by
  unfold Pkt.continuesSend Pkt.mask
  generalize p.opcode = o at *
  cases o <;> first | decide | exact absurd h (by decide) | cases h

theorem continuesSend_ud (h : p.opcode.transport = .ud) : p.continuesSend = false := by
  unfold Pkt.continuesSend Pkt.mask
  generalize p.opcode = o at *
  cases o <;> first | decide | exact absurd h (by decide) | cases h

/-! ### The invariant -/

/-- The WQE has taken `k` bytes from its start, and its length is covered by its SGEs. -/
def RecvWqe.holds (w : RecvWqe) (k : ℕ) : Prop := w.dma.At k ∧ w.dma.length ≤ sgeSum w.dma.sge

section Inv

variable (v : UcView)

/-- What `rxe_rcv` guarantees of a request that it queues. -/
def Fitting (p : Pkt) : Prop := p.mask.req ∧ v.type.carries p.opcode

/-- What always holds of the receive side. -/
structure RecvSound : Prop where
  opcode : ∀ o, v.opcode = some o → v.type.carries o
  queue : ∀ p ∈ v.reqPkts, Fitting v p
  ref : ∀ r, v.wqe = some r → r = .srq ∨ r = .rq 0 ∧ v.srq = none ∧ v.rq.live ≠ []
  tail : ∀ w ∈ v.rq.live.tail, w.fresh
  head : v.wqe ≠ some (.rq 0) → ∀ w, v.rq.live.head? = some w → w.fresh
  fits : ∀ w ∈ v.rq.live, w.dma.length ≤ sgeSum w.dma.sge
  srq : ∀ srq, v.srq = some srq → ∀ w ∈ srq.queue.live, w.fresh
  res : v.res.isSome → sendOpen v.opcode = false
  begun : sendOpen v.opcode → SendBegun (message v.execs)

/-- The receive WQE in use has taken the packets of the SEND in progress; without one, the
head of the receive queue is unused. -/
structure InStep : Prop where
  opened : sendOpen v.opcode → ∀ w, v.recvWqe = some w → w.holds (msgBytes v.type (message v.execs))
  closed : sendOpen v.opcode = false → ∀ w, v.rq.live.head? = some w → w.fresh

/-- No read is being answered, and the packet at hand continues the SEND in progress, or there
is none and it continues none. -/
structure InSequence (p : Pkt) : Prop where
  noRes : v.res = none
  place : sendOpen v.opcode = p.continuesSend

/-- What the receive WQE in use has taken of the message of a SEND packet at hand. -/
def Loading (p : Pkt) : Prop :=
  p.mask.send → ∀ w, v.recvWqe = some w →
    w.holds (if p.continuesSend then msgBytes v.type (message v.execs) else 0)

/-- The packet at hand ends a message that has been executed. -/
structure SendEnded (p : Pkt) : Prop where
  comp : p.mask.comp
  sent : p.mask.send → SendMessage (message v.execs) p ∧
    ∀ w, v.recvWqe = some w → w.holds (msgBytes v.type (message v.execs))
  last : ∃ pre, message v.execs = pre ++ [p]

/-- What holds in a state of the responder. -/
def RecvAt (state : RespState) (pkt : Option Pkt) : Prop :=
  match state with
  | .chkPsn | .chkOpSeq | .errMissingOpcodeLastD1e => InStep v ∧ v.res = none
  | .chkOpValid => InStep v ∧ ∀ p ∈ pkt, InSequence v p
  | .chkResource => InStep v ∧ (v.state = .error ∨ ∀ p ∈ pkt, InSequence v p)
  | .chkLength | .chkRkey | .execute => InStep v ∧ ∀ p ∈ pkt, InSequence v p ∧ Loading v p
  | .readReply => InStep v ∧ sendOpen v.opcode = false
  | .complete => v.status = .success → ∃ p, pkt = some p ∧ SendEnded v p
  | .errMalformedWqe => True
  | _ => InStep v

end Inv

/-- The invariant of the loop. -/
structure RecvInv (state : RespState) (pkt : Option Pkt) (v : UcView) : Prop where
  sound : RecvSound v
  carried : ∀ p ∈ pkt, Fitting v p
  now : RecvAt v state pkt

/-- The invariant between two calls. -/
structure RecvIdle (v : UcView) : Prop where
  sound : RecvSound v
  inStep : InStep v

/-! ### The passes -/

section Passes

variable {c : Ctx} {p : Pkt} {pkt : Option Pkt}

theorem RecvInv.said {state : RespState} {es : List Event} (h : RecvInv state pkt c.uc)
    (hes : Silent es) : RecvInv state pkt { c with out := c.out ++ es }.uc := by
  rw [uc_said c hes]
  exact h

theorem getReq_msg (h : RecvInv .getReq pkt c.uc) :
    RecvInv (getReq c pkt).1 (getReq c pkt).2.1 (getReq c pkt).2.2.uc := by
  have hin : InStep c.uc := h.now
  unfold getReq
  split
  · next herr =>
    split
    · exact ⟨h.sound, h.carried, hin, Or.inl herr⟩
    · next q pkts hq =>
      refine ⟨{ h.sound with queue := fun p hp => ?_ }, h.carried, { hin with }⟩
      exact h.sound.queue p (by rw [show c.uc.reqPkts = q :: pkts from hq]; exact .tail q hp)
  · split
    · exact ⟨h.sound, h.carried, hin⟩
    · next q pkts hq =>
      have hcarried : ∀ p ∈ some q, Fitting c.uc p := by
        rintro p ⟨⟩
        exact h.sound.queue q (by rw [show c.uc.reqPkts = q :: pkts from hq]; exact .head pkts)
      dsimp only
      split
      · next hres => exact ⟨h.sound, hcarried, hin, h.sound.res hres⟩
      · next hres =>
        rw [Bool.not_eq_true, Option.isSome_eq_false_iff, Option.isNone_iff_eq_none] at hres
        exact ⟨h.sound, hcarried, hin, hres⟩

theorem respCheckPsn_msg (h : RecvInv .chkPsn (some p) c.uc) :
    RecvInv (respCheckPsn c p).1 (some p) (respCheckPsn c p).2.uc := by
  obtain ⟨hin, hres⟩ : InStep c.uc ∧ c.uc.res = none := h.now
  unfold respCheckPsn
  dsimp only
  split
  · split
    · split <;> exact ⟨{ h.sound with }, h.carried, { hin with }⟩
    · split
      · exact ⟨h.sound, h.carried, hin⟩
      · exact ⟨{ h.sound with }, h.carried, { hin with }, hres⟩
  · split
    · split
      · exact ⟨{ h.sound with }, h.carried, { hin with }, hres⟩
      · exact ⟨{ h.sound with }, h.carried, { hin with }⟩
    · exact ⟨h.sound, h.carried, hin, hres⟩
  · exact ⟨h.sound, h.carried, hin, hres⟩

theorem sendOpen_rc {o : Option Opcode} (h : ∀ x, o = some x → QpType.rc.carries x) :
    sendOpen o = decide (o = some .rcSendFirst ∨ o = some .rcSendMiddle) := by
  cases o with
  | none => rfl
  | some x =>
    have hx := h x rfl
    cases x <;> first | decide | exact absurd hx (by decide) | rfl

theorem sendOpen_uc {o : Option Opcode} (h : ∀ x, o = some x → QpType.uc.carries x) :
    sendOpen o = decide (o = some .ucSendFirst ∨ o = some .ucSendMiddle) := by
  cases o with
  | none => rfl
  | some x =>
    have hx := h x rfl
    cases x <;> first | decide | exact absurd hx (by decide) | rfl

theorem not_rcSendNext {o : Opcode} (h : o ∈ rcWriteNext) : o ∉ rcSendNext := by
  simp only [rcWriteNext, List.mem_cons, List.not_mem_nil, or_false] at h
  rcases h with rfl | rfl | rfl <;> decide

theorem not_ucSendNext {o : Opcode} (h : o ∈ ucWriteNext) : o ∉ ucSendNext := by
  simp only [ucWriteNext, List.mem_cons, List.not_mem_nil, or_false] at h
  rcases h with rfl | rfl | rfl <;> decide

theorem checkOpSeq_msg (h : RecvInv .chkOpSeq (some p) c.uc) :
    RecvInv (checkOpSeq c p).1 (some p) (checkOpSeq c p).2.uc := by
  obtain ⟨hin, hres⟩ : InStep c.uc ∧ c.uc.res = none := h.now
  have hpass : sendOpen c.qp.resp.opcode = p.continuesSend → RecvInv .chkOpValid (some p) c.uc := by
    intro heq
    refine ⟨h.sound, h.carried, hin, ?_⟩
    rintro q ⟨⟩
    exact ⟨hres, heq⟩
  have hcarried := (h.carried p rfl).2
  have hopcode := h.sound.opcode
  unfold checkOpSeq
  split
  · next hrc =>
    rw [show c.uc.type = .rc from hrc] at hcarried hopcode
    have hopen := sendOpen_rc hopcode
    have hcont := continuesSend_rc (of_decide_eq_true hcarried)
    -- what `check_op_seq` compares depends on the opcode executed last
    split
    case h_1 hop | h_2 hop =>
      dsimp only
      split
      · next hmem => exact hpass (by rw [hop, hcont, decide_eq_true hmem]; rfl)
      · exact ⟨h.sound, h.carried, hin⟩
    case h_3 hop | h_4 hop =>
      dsimp only
      split
      · next hmem => exact hpass (by rw [hop, hcont, decide_eq_false (not_rcSendNext hmem)]; rfl)
      · exact ⟨h.sound, h.carried, hin⟩
    · next h₁ h₂ _ _ =>
      dsimp only
      split
      · exact ⟨h.sound, h.carried, hin⟩
      · next hmem =>
        rw [not_or] at hmem
        refine hpass ?_
        rw [show sendOpen c.qp.resp.opcode = _ from hopen, hcont, decide_eq_false hmem.1]
        exact decide_eq_false (not_or.2 ⟨h₁, h₂⟩)
  · next huc =>
    rw [show c.uc.type = .uc from huc] at hcarried hopcode
    have hopen := sendOpen_uc hopcode
    have hcont := continuesSend_uc (of_decide_eq_true hcarried)
    split
    case h_1 hop | h_2 hop =>
      dsimp only
      split
      · next hmem => exact hpass (by rw [hop, hcont, decide_eq_true hmem]; rfl)
      · exact ⟨h.sound, h.carried, hin, hres⟩
    case h_3 hop | h_4 hop =>
      dsimp only
      split
      · next hmem => exact hpass (by rw [hop, hcont, decide_eq_false (not_ucSendNext hmem)]; rfl)
      · exact ⟨h.sound, h.carried, hin, hres⟩
    · next h₁ h₂ _ _ =>
      split
      · exact ⟨{ h.sound with }, h.carried, { hin with }⟩
      · next hmem =>
        rw [not_or] at hmem
        refine hpass ?_
        rw [show sendOpen c.qp.resp.opcode = _ from hopen, hcont, decide_eq_false hmem.1]
        exact decide_eq_false (not_or.2 ⟨h₁, h₂⟩)
  · next hrc huc =>
    -- datagrams are messages of one packet
    refine hpass ?_
    have hud : ∀ o, c.uc.type.carries o → o.transport = .ud := by
      intro o ho
      have htype : c.uc.type ≠ .rc ∧ c.uc.type ≠ .uc := ⟨hrc, huc⟩
      generalize c.uc.type = type at ho htype
      cases type <;>
        first | exact of_decide_eq_true ho | exact absurd rfl htype.1 | exact absurd rfl htype.2
    rw [continuesSend_ud (hud _ hcarried)]
    cases hop : c.qp.resp.opcode with
    | none => rfl
    | some x =>
      have hx := hud x (hopcode x hop)
      cases x <;> first | rfl | exact absurd hx (by decide)

theorem checkOpValid_msg (h : RecvInv .chkOpValid (some p) c.uc) :
    RecvInv (checkOpValid c p).1 (some p) (checkOpValid c p).2.uc := by
  obtain ⟨hin, hseq⟩ : InStep c.uc ∧ _ := h.now
  rcases checkOpValid_cases c p with heq | ⟨-, heq⟩ | ⟨-, heq⟩ <;> rw [heq]
  · exact ⟨h.sound, h.carried, hin, Or.inr hseq⟩
  · exact ⟨h.sound, h.carried, hin⟩
  · exact ⟨{ h.sound with }, h.carried, { hin with }⟩

/-! The receive WQE for a message. -/

theorem RecvSound.takeRqHead (hs : RecvSound c.uc) (hsrq : c.qp.srq = none)
    (hfresh : ∀ w, c.qp.rq.live.head? = some w → w.fresh) : RecvSound (takeRqHead c).uc :=
  { hs with
    ref := by
      intro r hr
      dsimp only [Rxe.takeRqHead, Ctx.uc] at hr ⊢
      split at hr
      · cases hr
      · next hne =>
        cases hr
        exact Or.inr ⟨rfl, hsrq, fun hnil => hne (by rw [hnil]; rfl)⟩
    head := fun _ => hfresh }

theorem recvWqe_takeRqHead {w : RecvWqe} (hw : (takeRqHead c).uc.recvWqe = some w) :
    c.qp.rq.live.head? = some w := by
  unfold UcView.recvWqe takeRqHead Ctx.uc at hw
  dsimp only at hw
  cases hlive : c.qp.rq.live with
  | nil =>
    rw [hlive] at hw
    cases hw
  | cons v rest =>
    rw [hlive] at hw
    rw [if_neg (by simp)] at hw
    dsimp only at hw
    rwa [RingBuf.get?_of_lt (by simp [hlive]), hlive] at hw

theorem takeFlushWqe_msg (hs : RecvSound c.uc) (hin : InStep c.uc) :
    RecvSound (takeFlushWqe c).uc ∧
      ((takeFlushWqe c).qp.resp.wqe.isSome = false → InStep (takeFlushWqe c).uc) := by
  unfold takeFlushWqe
  split
  · next hnone =>
    have hwqe : c.qp.resp.wqe = none := Option.isNone_iff_eq_none.1 hnone.1
    have hfresh : ∀ w, c.qp.rq.live.head? = some w → w.fresh := hs.head (by
      show c.qp.resp.wqe ≠ _
      rw [hwqe]
      nofun)
    refine ⟨hs.takeRqHead (Option.isNone_iff_eq_none.1 hnone.2) hfresh, fun hno => ?_⟩
    -- no WQE was found, so none is in use
    refine ⟨fun _ w hw => ?_, fun _ => hfresh⟩
    unfold UcView.recvWqe at hw
    rw [show (takeRqHead c).uc.wqe = none from by
      rwa [Option.isSome_eq_false_iff, Option.isNone_iff_eq_none] at hno] at hw
    cases hw
  · exact ⟨hs, fun _ => hin⟩

theorem not_continuesSend (h : p.mask.rwr) : p.continuesSend = false := by
  unfold Pkt.continuesSend
  rw [h, Bool.not_true, Bool.and_false]

theorem continuesSend_of_send (hsend : p.mask.send) (hrwr : p.mask.rwr = false) :
    p.continuesSend := by
  unfold Pkt.continuesSend
  rw [hsend, hrwr]
  rfl

theorem takeRqHead_msg (hs : RecvSound c.uc) (hin : InStep c.uc) (hseq : InSequence c.uc p)
    (hcarried : ∀ q ∈ some p, Fitting c.uc q) (hrwr : p.mask.rwr) (hsrq : c.qp.srq = none) :
    RecvInv (if (takeRqHead c).qp.resp.wqe.isSome then .chkLength else .errRnr) (some p)
      (takeRqHead c).uc := by
  have hopen : sendOpen c.qp.resp.opcode = false := hseq.place.trans (not_continuesSend hrwr)
  have hfresh := hin.closed hopen
  have hin' : InStep (takeRqHead c).uc :=
    ⟨not_sendOpen hopen, fun _ => hfresh⟩
  refine ⟨hs.takeRqHead hsrq hfresh, hcarried, ?_⟩
  split
  · refine ⟨hin', ?_⟩
    rintro q ⟨⟩
    refine ⟨{ hseq with }, fun _ w hw => ?_⟩
    rw [not_continuesSend hrwr]
    exact hfresh w (recvWqe_takeRqHead hw)
  · exact hin'

theorem getSrqWqe_msg {srq : Srq} (hs : RecvSound c.uc) (hin : InStep c.uc)
    (hseq : InSequence c.uc p) (hcarried : ∀ q ∈ some p, Fitting c.uc q) (hrwr : p.mask.rwr)
    (hsrq : c.qp.srq = some srq) :
    RecvInv (getSrqWqe c srq).1 (some p) (getSrqWqe c srq).2.uc := by
  have hopen : sendOpen c.qp.resp.opcode = false := hseq.place.trans (not_continuesSend hrwr)
  have hqueue := hs.srq srq hsrq
  unfold getSrqWqe
  split
  · exact ⟨hs, hcarried, hin⟩
  · split
    · exact ⟨hs, hcarried, hin⟩
    · next w rest hlive =>
      -- the copy of a fresh WQE is taken, and the SRQ limit may be spent
      have htake : ∀ limit, RecvInv .chkLength (some p)
          { c.uc with srqWqe := w, wqe := some .srq,
                      srq := some { srq with queue := srq.queue.pop, limit } } := by
        intro limit
        refine ⟨{ hs with ref := ?_, head := fun _ => hin.closed hopen, srq := ?_ }, hcarried,
          ⟨not_sendOpen hopen, hin.closed⟩, ?_⟩
        · rintro r ⟨⟩
          exact Or.inl rfl
        · rintro srq' ⟨⟩ w' hw'
          dsimp only at hw'
          rw [RingBuf.pop_live hlive] at hw'
          exact hqueue w' (by rw [hlive]; exact .tail w hw')
        · rintro q ⟨⟩
          refine ⟨{ hseq with }, fun _ w' hw' => ?_⟩
          cases hw'
          rw [not_continuesSend hrwr]
          exact hqueue w (by rw [hlive]; exact .head rest)
      dsimp only
      split
      · have hview := uc_said { c with
          qp.resp.srqWqe := w, qp.resp.wqe := some .srq
          qp.srq := some { srq with queue := srq.queue.pop, limit := 0 } }
          (silent_one (e := .srqLimitReached) rfl)
        exact hview ▸ htake 0
      · exact htake srq.limit

theorem checkResource_msg (h : RecvInv .chkResource pkt c.uc) :
    RecvInv (checkResource c pkt).1 pkt (checkResource c pkt).2.uc := by
  obtain ⟨hin, hseq⟩ : InStep c.uc ∧ _ := h.now
  unfold checkResource
  split
  · next herr =>
    obtain ⟨hs, hin'⟩ := takeFlushWqe_msg h.sound hin
    have hcarried : ∀ p ∈ pkt, Fitting (takeFlushWqe c).uc p := by
      unfold takeFlushWqe
      split <;> exact h.carried
    dsimp only
    split
    · show RecvInv .complete pkt { (takeFlushWqe c).uc with status := .wrFlushErr }
      exact ⟨{ hs with }, hcarried, nofun⟩
    · next hnone => exact ⟨hs, hcarried, hin' (by simpa using hnone)⟩
  · next herr =>
    cases pkt with
    | none => exact ⟨h.sound, h.carried, hin⟩
    | some p =>
      have hseq := hseq.resolve_left herr p rfl
      -- a packet that needs no WQE goes on with the one in use
      have hload : p.mask.rwr = false → RecvInv .chkLength (some p) c.uc := by
        intro hrwr
        refine ⟨h.sound, h.carried, hin, ?_⟩
        rintro q ⟨⟩
        refine ⟨hseq, fun hsend w hw => ?_⟩
        have hcont := continuesSend_of_send hsend hrwr
        rw [if_pos hcont]
        exact hin.opened (hseq.place.trans hcont) w hw
      dsimp only
      split
      · next hread =>
        dsimp only
        split
        · refine hload ?_
          revert hread
          unfold HdrMask.readOrAtomic Pkt.mask
          generalize p.opcode = o
          cases o <;> first | exact fun _ => rfl | exact nofun
        · exact ⟨h.sound, h.carried, hin⟩
      · split
        · next hrwr =>
          split
          · next srq hsrq =>
            exact getSrqWqe_msg h.sound hin hseq h.carried hrwr hsrq
          · next hsrq => exact takeRqHead_msg h.sound hin hseq h.carried hrwr hsrq
        · next hrwr => exact hload (by simpa using hrwr)

theorem checkRkey_msg (h : RecvInv .chkRkey (some p) c.uc) :
    RecvInv (checkRkey c p).1 (some p) (checkRkey c p).2.uc := by
  obtain ⟨hin, hload⟩ : InStep c.uc ∧ _ := h.now
  rw [checkRkey_ucView]
  rcases checkRkey_state c p with hs | ⟨-, hs | hs⟩ <;> rw [hs]
  · exact ⟨h.sound, h.carried, hin, hload⟩
  · exact ⟨h.sound, h.carried, hin⟩
  · exact ⟨h.sound, h.carried, hin⟩

/-! The data of a packet. -/

theorem RecvSound.setRecvWqe {w : RecvWqe} {f : RecvWqe → RecvWqe} (hs : RecvSound c.uc)
    (hw : recvWqe c.qp = some w) (hlen : (f w).dma.length = w.dma.length)
    (hsge : (f w).dma.sge = w.dma.sge) :
    ∃ rq srqWqe, (setRecvWqe c f).uc = { c.uc with rq, srqWqe } ∧
      RecvSound { c.uc with rq, srqWqe } ∧
      UcView.recvWqe { c.uc with rq, srqWqe } = some (f w) ∧
      (c.qp.resp.wqe = some .srq ∨ rq.live.head? = some (f w)) := by
  obtain ⟨rq, srqWqe, hview, hrecv, htail, hnil, hfits, hcase⟩ :=
    setRecvWqe_head hw hlen hsge fun r hr => (hs.ref r hr).imp_right fun h => ⟨h.1, h.2.2⟩
  refine ⟨rq, srqWqe, hview,
    { hs with ref := ?_, tail := htail ▸ hs.tail, head := ?_, fits := hfits hs.fits }, hrecv,
    hcase.imp And.left And.right⟩
  · intro r hr
    have href := hs.ref r hr
    rwa [ne_eq, ← hnil] at href
  · rcases hcase with ⟨-, rfl⟩ | ⟨hi, -⟩
    · exact hs.head
    · exact fun hne => absurd hi hne

theorem sendDataIn_msg {k : ℕ} (hs : RecvSound c.uc)
    (hholds : ∀ w, recvWqe c.qp = some w → w.holds k) (data : List UInt8) :
    ∃ rq srqWqe dev, (sendDataIn c data).2.uc = { c.uc with rq, srqWqe, dev } ∧
      RecvSound { c.uc with rq, srqWqe, dev } ∧
      ((sendDataIn c data).1 = some .errMalformedWqe ∨ (sendDataIn c data).1 = none ∧
        ∃ w, UcView.recvWqe { c.uc with rq, srqWqe, dev } = some w ∧
          w.holds (k + data.length)) := by
  cases hw : recvWqe c.qp with
  | none =>
    have hdata : sendDataIn c data = (some .errMalformedWqe, c) := by
      unfold sendDataIn
      rw [hw]
    rw [hdata]
    exact ⟨c.qp.rq, c.qp.resp.srqWqe, c.dev, rfl, { hs with }, Or.inl rfl⟩
  | some w =>
    obtain ⟨hat, hfits⟩ := hholds w hw
    obtain ⟨dma, dev, r, -, hlen, hsge, hc, hres⟩ := sendDataIn_copy hw hat hfits data
    have hs' : RecvSound { c with dev }.uc := { hs with }
    obtain ⟨rq, srqWqe, hview, hsound, hrecv, -⟩ := hs'.setRecvWqe (c := { c with dev })
      (f := fun w => { w with dma }) hw hlen hsge
    refine ⟨rq, srqWqe, dev, by rw [hc]; exact hview, hsound, hres.imp And.left ?_⟩
    rintro ⟨hnone, -, hat'⟩
    refine ⟨hnone, _, hrecv, hat', ?_⟩
    dsimp only
    rw [hlen, hsge]
    exact hfits

theorem executeData_msg (hs : RecvSound c.uc) (hload : Loading c.uc p) :
    ∃ rq srqWqe dev, (executeData c p).2.uc = { c.uc with rq, srqWqe, dev } ∧
      RecvSound { c.uc with rq, srqWqe, dev } ∧
      ((p.mask.send = false ∧ rq = c.qp.rq ∧ srqWqe = c.qp.resp.srqWqe) ∨
        (executeData c p).1 = some .errMalformedWqe ∨
        p.mask.send ∧ (executeData c p).1 = none ∧
          ∃ w, UcView.recvWqe { c.uc with rq, srqWqe, dev } = some w ∧
            w.holds ((if p.continuesSend then msgBytes c.qp.type (message c.uc.execs) else 0) +
              p.stored c.qp.type)) := by
  unfold executeData
  split
  · next hsend =>
    unfold Pkt.stored
    split
    -- the GRH of a datagram goes in front of its payload
    · obtain ⟨rq, srqWqe, dev, hview, hs₁, hres⟩ := sendDataIn_msg hs (hload hsend) p.grh
      generalize sendDataIn c p.grh = r at hview hres
      obtain ⟨_ | err, c₁⟩ := r
      · obtain hcase | ⟨-, w, hw, hholds⟩ := hres
        · cases hcase
        have hs₁' : RecvSound c₁.uc := hview ▸ hs₁
        obtain ⟨rq', srqWqe', dev', hview', hs₂, hres'⟩ := sendDataIn_msg hs₁'
          (fun w' hw' => by
            rw [← recvWqe_uc, show c₁.uc = _ from hview, hw] at hw'
            cases hw'
            exact hholds) p.payload
        rw [show c₁.uc = _ from hview] at hview' hs₂ hres'
        refine ⟨rq', srqWqe', dev', hview', hs₂, Or.inr ?_⟩
        rw [← Nat.add_assoc]
        exact hres'.imp_right fun h => ⟨hsend, h⟩
      · obtain hcase | ⟨hnone, -⟩ := hres
        · exact ⟨rq, srqWqe, dev, hview, hs₁, Or.inr (Or.inl hcase)⟩
        · cases hnone
    · obtain ⟨rq, srqWqe, dev, hview, hs₁, hres⟩ := sendDataIn_msg hs (hload hsend) p.payload
      exact ⟨rq, srqWqe, dev, hview, hs₁, Or.inr (hres.imp_right fun h => ⟨hsend, h⟩)⟩
  · next hsend =>
    have hsend : p.mask.send = false := by simpa using hsend
    split
    · obtain ⟨byte, va, resid, hc⟩ := writeDataIn_frame c p
      rw [hc]
      exact ⟨c.qp.rq, c.qp.resp.srqWqe, _, rfl, { hs with }, Or.inl ⟨hsend, rfl, rfl⟩⟩
    · split
      · obtain ⟨byte, orig, hc⟩ := processAtomic_frame c p
        rw [hc]
        exact ⟨c.qp.rq, c.qp.resp.srqWqe, _, rfl, { hs with }, Or.inl ⟨hsend, rfl, rfl⟩⟩
      · exact ⟨c.qp.rq, c.qp.resp.srqWqe, c.dev, rfl, { hs with }, Or.inl ⟨hsend, rfl, rfl⟩⟩

theorem executeDone_other (hs : RecvSound c.uc) (hcarried : Fitting c.uc p)
    (hseq : InSequence c.uc p) (hin : InStep c.uc) (hsend : p.mask.send = false) :
    RecvInv (executeDone c p).1 (some p) (executeDone c p).2.uc := by
  have hopen := sendOpen_of_not_send hsend
  have hclosed : sendOpen c.uc.opcode = false := by
    rw [hseq.place, Pkt.continuesSend, hsend, Bool.false_and]
  -- the request is the last packet of its message, whatever came before
  have hlast : ∃ pre, message (c.uc.execs ++ [p]) = pre ++ [p] := by
    rw [message_concat]
    split
    · exact ⟨_, rfl⟩
    · exact ⟨[], rfl⟩
  have hcarried' : ∀ q ∈ some p, Fitting c.uc q := by
    rintro q ⟨⟩
    exact hcarried
  rw [executeDone_uc_view]
  refine ⟨{ hs with opcode := ?_, res := fun _ => hopen, begun := ?_ }, hcarried', ?_⟩
  · rintro o ⟨⟩
    exact hcarried.2
  · exact not_sendOpen hopen
  · have hin' : InStep { c.uc with
        psn := psnMask (p.psn + 1), opcode := some p.opcode, status := .success
        execs := c.uc.execs ++ [p] } :=
      ⟨not_sendOpen hopen, fun _ => hin.closed hclosed⟩
    rcases executeDone_next c p with ⟨hcomp, hnext⟩ | ⟨-, hnext | hnext⟩ <;> rw [hnext]
    · exact fun _ => ⟨p, rfl, hcomp,
        fun htrue => absurd (hsend.symm.trans htrue) Bool.false_ne_true, hlast⟩
    · exact hin'
    · exact hin'

theorem executeDone_send (hs : RecvSound c.uc) (hcarried : Fitting c.uc p)
    (hseq : InSequence c.uc p) (hsend : p.mask.send)
    (hholds : ∀ w, c.uc.recvWqe = some w →
      w.holds ((if p.continuesSend then msgBytes c.qp.type (message c.uc.execs) else 0) +
        p.stored c.qp.type)) :
    RecvInv (executeDone c p).1 (some p) (executeDone c p).2.uc := by
  have hcarried' : ∀ q ∈ some p, Fitting c.uc q := by
    rintro q ⟨⟩
    exact hcarried
  have hopcode : ∀ o, some p.opcode = some o → c.uc.type.carries o := by
    rintro o ⟨⟩
    exact hcarried.2
  have hres : c.uc.res.isSome → sendOpen (some p.opcode) = false := by
    rw [hseq.noRes]
    nofun
  -- a packet that continues a SEND is added to the message, any other starts one
  have hmsg : message (c.uc.execs ++ [p]) =
      (if p.continuesSend then message c.uc.execs else []) ++ [p] := by
    rw [message_concat]
    cases sendPlace hsend with
    | first _ hrwr hnew | only _ hrwr hnew =>
      rw [hnew, not_continuesSend hrwr]
      rfl
    | middle _ hrwr hcont | last _ hrwr hcont =>
      rw [if_pos hcont, if_pos (continuesSend_of_send hsend hrwr)]
  have hbytes : ∀ w, c.uc.recvWqe = some w →
      w.holds (msgBytes c.qp.type (message (c.uc.execs ++ [p]))) := by
    intro w hw
    rw [hmsg, msgBytes_concat, apply_ite (msgBytes c.qp.type)]
    exact hholds w hw
  -- the message goes on, or it ends
  have hopened : sendOpen (some p.opcode) → p.mask.comp = false →
      SendBegun (message (c.uc.execs ++ [p])) →
      RecvInv (executeDone c p).1 (some p) (executeDone c p).2.uc := by
    intro hopen hcomp hbegun
    rw [executeDone_uc_view]
    refine ⟨{ hs with opcode := hopcode, res := hres, begun := fun _ => hbegun }, hcarried', ?_⟩
    rcases executeDone_next c p with ⟨htrue, -⟩ | ⟨-, hnext | hnext⟩
    · exact absurd (hcomp.symm.trans htrue) Bool.false_ne_true
    all_goals
      rw [hnext]
      exact ⟨fun _ => hbytes, fun hclosed => not_sendOpen hclosed hopen⟩
  have hended : sendOpen (some p.opcode) = false → p.mask.comp →
      SendMessage (message (c.uc.execs ++ [p])) p →
      RecvInv (executeDone c p).1 (some p) (executeDone c p).2.uc := by
    intro hopen hcomp hsent
    rw [executeDone_uc_view]
    refine ⟨{ hs with
      opcode := hopcode, res := hres
      begun := not_sendOpen hopen }, hcarried', ?_⟩
    rcases executeDone_next c p with ⟨-, hnext⟩ | ⟨hfalse, -⟩
    · rw [hnext]
      exact fun _ => ⟨p, rfl, hcomp, fun _ => ⟨hsent, hbytes⟩, _, hmsg⟩
    · exact absurd (hfalse.symm.trans hcomp) Bool.false_ne_true
  -- the place of the packet in its message
  cases sendPlace hsend with
  | first hop hrwr _ hcomp hopen =>
    rw [not_continuesSend hrwr] at hmsg
    exact hopened hopen hcomp ⟨p, [], hmsg, hop, nofun⟩
  | middle hop hrwr _ hcomp hopen =>
    have hcont := continuesSend_of_send hsend hrwr
    rw [if_pos hcont] at hmsg
    obtain ⟨first, rest, hfirst, hopFirst, hrest⟩ := hs.begun (hseq.place.trans hcont)
    refine hopened hopen hcomp ⟨first, rest ++ [p], by rw [hmsg, hfirst]; rfl, hopFirst,
      fun q hq => ?_⟩
    rcases List.mem_append.1 hq with hq | hq
    · exact hrest q hq
    · rw [List.mem_singleton.1 hq]
      exact hop
  | last hop hrwr _ hcomp hopen =>
    have hcont := continuesSend_of_send hsend hrwr
    rw [if_pos hcont] at hmsg
    exact hended hopen hcomp (Or.inr ⟨_, hs.begun (hseq.place.trans hcont), hmsg, hop⟩)
  | only hop hrwr _ hcomp hopen =>
    rw [not_continuesSend hrwr] at hmsg
    exact hended hopen hcomp (Or.inl ⟨hmsg, hop⟩)

theorem execute_msg (h : RecvInv .execute (some p) c.uc) :
    RecvInv (execute c p).1 (some p) (execute c p).2.uc := by
  obtain ⟨hin, hall⟩ : InStep c.uc ∧ _ := h.now
  obtain ⟨hseq, hload⟩ := hall p rfl
  have hcarried := h.carried p rfl
  unfold execute
  split
  · next hread =>
    simp only [Bool.and_eq_true, Bool.not_eq_eq_eq_not, Bool.not_true] at hread
    have hopen : sendOpen c.qp.resp.opcode = false := by
      rw [show sendOpen c.qp.resp.opcode = _ from hseq.place, Pkt.continuesSend, hread.1.1,
        Bool.false_and]
    have hview : ({ c with qp.resp.msn := c.qp.resp.msn + 1 }.emit
        (.exec p c.qp.resp.atomicOrig)).uc = { c.uc with execs := c.uc.execs ++ [p] } := by
      unfold Ctx.uc Ctx.emit
      dsimp only
      rw [execPkts_append]
      rfl
    dsimp only
    rw [hview]
    exact ⟨{ h.sound with begun := not_sendOpen hopen }, h.carried,
      ⟨not_sendOpen hopen, hin.closed⟩, hopen⟩
  · obtain ⟨rq, srqWqe, dev, hview, hs, hres⟩ := executeData_msg h.sound hload
    have herr := @executeData_err c p
    generalize executeData c p = r at hview hres herr
    obtain ⟨o, c₁⟩ := r
    have hs₁ : RecvSound c₁.uc := hview ▸ hs
    have hseq₁ : InSequence c₁.uc p := by
      rw [show c₁.uc = _ from hview]
      exact { hseq with }
    have hcarried₁ : Fitting c₁.uc p := by
      rw [show c₁.uc = _ from hview]
      exact hcarried
    -- no SEND; a malformed receive WQE; data in the WQE in use
    obtain ⟨hsend, hrq, hsrqWqe⟩ | hmal | ⟨hsend, hnone, w, hw, hholds⟩ := hres
    · have hin₁ : InStep c₁.uc := by
        rw [show c₁.uc = _ from hview, hrq, hsrqWqe]
        exact ⟨hin.opened, hin.closed⟩
      cases o with
      | none => exact executeDone_other hs₁ hcarried₁ hseq₁ hin₁ hsend
      | some err =>
        refine ⟨hs₁, ?_, ?_⟩
        · rintro q ⟨⟩
          exact hcarried₁
        · rcases herr rfl with rfl | rfl | rfl | rfl <;> first | exact hin₁ | trivial
    · obtain rfl : o = some .errMalformedWqe := hmal
      refine ⟨hs₁, ?_, trivial⟩
      rintro q ⟨⟩
      exact hcarried₁
    · obtain rfl : o = none := hnone
      refine executeDone_send hs₁ hcarried₁ hseq₁ hsend fun w' hw' => ?_
      have htype : c₁.qp.type = c.qp.type := congrArg UcView.type hview
      rw [show c₁.uc = _ from hview] at hw' ⊢
      rw [hw] at hw'
      cases hw'
      rw [htype]
      exact hholds

/-! Completions. -/

theorem RecvSound.release {v : UcView} {rq : RingBuf RecvWqe} (hs : RecvSound v)
    (hrq : rq.live <:+ v.rq.live.tail ∨ rq.live = v.rq.live ∧ v.wqe ≠ some (.rq 0)) :
    RecvSound { v with rq, wqe := none } := by
  rcases hrq with hsuf | ⟨heq, hwqe⟩
  -- what was behind the head becomes the queue
  · exact { hs with
      ref := nofun
      tail := fun w hw => hs.tail w (hsuf.subset (List.mem_of_mem_tail hw))
      head := fun _ w hw => hs.tail w (hsuf.subset (List.mem_of_mem_head? hw))
      fits := fun w hw => hs.fits w (List.mem_of_mem_tail (hsuf.subset hw)) }
  · refine { hs with ref := nofun, tail := ?_, head := fun _ => ?_, fits := ?_ } <;> dsimp only <;>
      rw [heq]
    · exact hs.tail
    · exact hs.head hwqe
    · exact hs.fits

theorem RecvSound.retire (hs : RecvSound c.uc) : RecvSound (retireRecvWqe c).uc := by
  refine { hs.release ?_ with }
  rcases retireRecvWqe_live c with ⟨hrq, -⟩ | ⟨hrq, hsrq⟩
  · exact Or.inl (hrq ▸ List.suffix_rfl)
  · refine Or.inr ⟨hrq, fun hwqe => ?_⟩
    rcases hs.ref _ hwqe with ⟨⟨⟩⟩ | ⟨-, hnone, -⟩
    exact hsrq hnone

theorem RecvSound.inStep {v : UcView} (hs : RecvSound v) (hno : v.recvWqe = none) : InStep v := by
  refine ⟨fun _ w hw => ?_, fun _ => hs.head fun hwqe => ?_⟩
  · rw [hno] at hw
    cases hw
  · rcases hs.ref _ hwqe with ⟨⟨⟩⟩ | ⟨-, -, hne⟩
    obtain ⟨w, rest, hlive⟩ := List.exists_cons_of_ne_nil hne
    rw [recvWqe_rq hwqe hlive] at hno
    cases hno

theorem respDoComplete_msg (h : RecvInv .complete pkt c.uc) :
    RecvInv (respDoComplete c pkt).1 pkt (respDoComplete c pkt).2.uc := by
  have hs := h.sound.retire
  have hin := hs.inStep rfl
  rcases respDoComplete_cases c pkt with ⟨hnone, heq⟩ | ⟨wqe, cq, -, heq | heq⟩ <;> rw [heq]
  · exact ⟨h.sound, h.carried, h.sound.inStep hnone⟩
  · dsimp only
    rw [retireRecvWqe_ucView c cq rfl]
    refine ⟨hs, h.carried, ?_⟩
    -- a QP in error goes on flushing
    rcases respAfterCqe_cases c pkt with ⟨herr, hs⟩ | hs | hs | hs <;> rw [hs]
    · exact ⟨hin, Or.inl herr⟩
    all_goals exact hin
  · dsimp only
    rw [retireRecvWqe_ucView c cq rfl]
    exact ⟨hs, h.carried, hin⟩

/-! Answers to reads. -/

theorem readReply_msg (h : RecvInv .readReply (some p) c.uc) :
    RecvInv (readReply c p).1 (some p) (readReply c p).2.uc := by
  obtain ⟨hin, hopen⟩ : InStep c.uc ∧ sendOpen c.uc.opcode = false := h.now
  obtain ⟨-, psn, opcode, resources, resHead, mr, res, skb, es, ⟨hes, hop⟩, hc⟩ :=
    readReply_frame c p
  have hview : (readReply c p).2.uc = { c.uc with psn, opcode, res } := by
    rw [hc]
    exact uc_said { c with skb, qp.resp.psn := psn, qp.resp.opcode := opcode
                           qp.resp.resources := resources, qp.resp.resHead := resHead
                           qp.resp.mr := mr, qp.resp.res := res } hes
  -- `resp.opcode` is kept, or forgotten with the last response
  have hclosed : sendOpen opcode = false := by
    rcases hop with rfl | rfl
    · exact hopen
    · rfl
  have hs : RecvSound { c.uc with psn, opcode, res } := by
    refine { h.sound with opcode := ?_, res := fun _ => hclosed, begun := not_sendOpen hclosed }
    rcases hop with rfl | rfl
    · exact h.sound.opcode
    · nofun
  have hin' : InStep { c.uc with psn, opcode, res } :=
    ⟨not_sendOpen hclosed, fun _ => hin.closed hopen⟩
  rw [hview]
  rcases readReply_next c p with hnext | hnext | hnext <;> rw [hnext] <;>
    exact ⟨hs, h.carried, hin'⟩

/-- A duplicate read is not replayed in the middle of a SEND. -/
def RespCfg.replayFits (s : RespCfg) : Prop :=
  s.state = .duplicateRequest → ∀ p i res, s.pkt = some p → p.mask.read →
    findResource s.c.qp p.psn = some i → s.c.qp.resp.resources[i]? = some res → replayOk res p →
      sendOpen s.c.qp.resp.opcode = false

theorem duplicateRequest_msg (h : RecvInv .duplicateRequest (some p) c.uc)
    (hok : RespCfg.replayFits ⟨.duplicateRequest, some p, c⟩) :
    RecvInv (duplicateRequest c p).1 (some p) (duplicateRequest c p).2.uc := by
  have hin : InStep c.uc := h.now
  by_cases hread : p.mask.read
  · rw [duplicateRequest_of_read c hread]
    rcases duplicateRead_cases c p with hc | ⟨i, res, hfind, hres, hreplay, hc⟩ <;> rw [hc]
    · exact ⟨h.sound, h.carried, hin⟩
    · have hopen := hok rfl p i res rfl hread hfind hres hreplay
      exact ⟨{ h.sound with res := fun _ => hopen }, h.carried, { hin with }, hopen⟩
  · obtain ⟨hs, ⟨skb, es, hes, hc⟩ | ⟨skb, es, i, ack, hes, hc⟩⟩ :=
      duplicateRequest_frame c p (by simpa using hread) <;> rw [hs, hc]
    · exact RecvInv.said (c := { c with skb }) ⟨h.sound, h.carried, hin⟩ hes
    · exact RecvInv.said (c := { setRes c i fun res => { res with ptr := .skb ack } with skb })
        ⟨h.sound, h.carried, hin⟩ hes

/-! Errors. -/

theorem doClassD1eError_msg (h : RecvInv .errMissingOpcodeLastD1e pkt c.uc) :
    RecvInv (doClassD1eError c).1 pkt (doClassD1eError c).2.uc := by
  obtain ⟨hin, hres⟩ : InStep c.uc ∧ c.uc.res = none := h.now
  unfold doClassD1eError
  split
  · dsimp only
    split
    · exact ⟨{ h.sound with }, h.carried, nofun⟩
    · exact ⟨{ h.sound with }, h.carried, { hin with }⟩
  · dsimp only
    split
    · next hsome =>
      -- the WQE in use is taken back to its start
      cases hw : recvWqe c.qp with
      | none =>
        obtain ⟨r, hr⟩ := Option.isSome_iff_exists.1 hsome
        rcases h.sound.ref r hr with rfl | ⟨rfl, -, hne⟩
        · unfold recvWqe at hw
          rw [hr] at hw
          cases hw
        · obtain ⟨w, rest, hlive⟩ := List.exists_cons_of_ne_nil hne
          rw [← recvWqe_uc, recvWqe_rq hr hlive] at hw
          cases hw
      | some w =>
        obtain ⟨rq, srqWqe, hview, hs, -, hhead⟩ := h.sound.setRecvWqe hw
          (f := fun w =>
            { w with
              dma := { w.dma with resid := w.dma.length, curSge := 0, sgeOffset := 0 } }) rfl rfl
        have hgoal : RecvInv .chkOpSeq pkt { c.uc with rq, srqWqe, opcode := none } := by
          refine ⟨{ hs with opcode := nofun, res := fun _ => rfl, begun := nofun }, h.carried,
            ⟨nofun, fun _ w' hw' => ?_⟩, hres⟩
          rcases hhead with hsrq | hhead
          · refine hs.head ?_ w' hw'
            show c.qp.resp.wqe ≠ _
            rw [hsrq]
            nofun
          · obtain rfl := Option.some_inj.1 (hhead.symm.trans hw')
            exact ⟨dmaAt_rewind w.dma, hs.fits _ (List.mem_of_mem_head? hw')⟩
        exact (congrArg (fun v : UcView => RecvInv .chkOpSeq pkt { v with opcode := none })
          hview).mpr hgoal
    · exact ⟨h.sound, h.carried, hin, hres⟩

theorem respReset_msg (h : RecvInv .reset pkt c.uc) : RecvIdle (respReset c).uc := by
  -- all WQEs leave, unless they are those of an SRQ
  have hlive : (respReset c).uc.rq.live <:+ c.uc.rq.live.tail ∨
      (respReset c).uc.rq.live = c.uc.rq.live ∧ c.uc.wqe ≠ some (.rq 0) := by
    unfold respReset
    dsimp only [Ctx.uc]
    split
    · rw [RingBuf.live_iterate_pop, List.drop_length]
      exact Or.inl (List.nil_suffix)
    · next hsrq =>
      refine Or.inr ⟨rfl, fun hwqe => ?_⟩
      rcases h.sound.ref _ hwqe with ⟨⟨⟩⟩ | ⟨-, hnone, -⟩
      exact hsrq (by rw [show c.qp.srq = none from hnone]; rfl)
  have hs : RecvSound (respReset c).uc := { h.sound.release hlive with queue := nofun }
  exact ⟨hs, hs.inStep rfl⟩

theorem RecvInv.plain {state : RespState} {v : UcView} (h : RecvInv state pkt v)
    (hin : InStep v) {state' : RespState} (hstate : RecvAt v state' pkt = InStep v) :
    RecvInv state' pkt v := ⟨h.sound, h.carried, hstate ▸ hin⟩

/-- Every pass keeps the invariant. -/
theorem recvMsgRule : PassRule (fun (_ : Unit) _ => ())
    (fun _ state pkt c => RecvInv state pkt c.uc ∧ RespCfg.replayFits ⟨state, pkt, c⟩)
    (fun _ state pkt c => RecvInv state pkt c.uc) (fun _ c => RecvIdle c.uc) where
  getReq _ _ _ h := getReq_msg h.1
  chkPsn _ _ _ h := respCheckPsn_msg h.1
  chkOpSeq _ _ _ h := checkOpSeq_msg h.1
  chkOpValid _ _ _ h := checkOpValid_msg h.1
  chkResource _ _ _ h := checkResource_msg h.1
  chkLength _ _ _ h := ⟨h.1.sound, h.1.carried, h.1.now⟩
  chkRkey _ _ _ h := checkRkey_msg h.1
  execute _ _ _ h := execute_msg h.1
  complete _ _ _ h := respDoComplete_msg h.1
  readReply _ _ _ h := readReply_msg h.1
  acknowledge _ p c h := by
    rcases acknowledge_frame c p with ⟨skb, es, hes, hc⟩ | ⟨skb, es, ack, hes, hc⟩ <;> rw [hc]
    · exact RecvInv.said (c := { c with skb }) (h.1.plain h.1.now rfl) hes
    · exact RecvInv.said (c := { keepAtomicAck c ack with skb }) (h.1.plain h.1.now rfl) hes
  cleanup _ pkt c h := by
    have hin : InStep c.uc := h.1.now
    refine ⟨{ h.1.sound with queue := fun p hp => h.1.sound.queue p ?_ }, h.1.carried, { hin with }⟩
    dsimp only [cleanup, Ctx.uc] at hp
    split at hp
    · exact List.mem_of_mem_tail hp
    · exact hp
  duplicateRequest _ _ _ h := duplicateRequest_msg h.1 h.2
  errPsn _ p c h := by
    obtain ⟨skb, es, hes, hc⟩ := sendAck_frame c p aethNakPsnSeqError c.qp.resp.psn
    rw [hc]
    exact RecvInv.said (c := { c with skb }) (h.1.plain h.1.now rfl) hes
  -- an error of this class completes the WQE with a bad status
  errAc _ state pkt c syn status hstate h := by
    have hne : status ≠ .success := by
      intro hsucc
      cases state <;> cases hstate <;> cases hsucc
    exact ⟨{ h.1.sound with }, h.1.carried, fun hsucc => absurd hsucc hne⟩
  errD1e _ _ _ h := doClassD1eError_msg h.1
  errRnr _ p c h := by
    obtain ⟨skb, es, drop, hes, hc⟩ := respErrRnr_frame c p
    have hin : InStep c.uc := h.1.now
    rw [hc]
    exact RecvInv.said (c := { c with skb, qp.resp.dropMsg := drop })
      ⟨{ h.1.sound with }, h.1.carried, { hin with }⟩ hes
  errRkey _ _ c h := by
    have hin : InStep c.uc := h.1.now
    unfold respErrRkey
    split
    · exact ⟨{ h.1.sound with }, h.1.carried, nofun⟩
    · dsimp only
      split
      · exact ⟨{ h.1.sound with }, h.1.carried, nofun⟩
      · exact ⟨{ h.1.sound with }, h.1.carried, { hin with }⟩
  errLength _ _ c h := by
    have hin : InStep c.uc := h.1.now
    unfold respErrLength
    split
    · exact ⟨{ h.1.sound with }, h.1.carried, nofun⟩
    · split
      · exact ⟨{ h.1.sound with }, h.1.carried, nofun⟩
      · exact ⟨{ h.1.sound with }, h.1.carried, { hin with }⟩
  toError _ state pkt c hstate h := by
    rcases hstate with rfl | ⟨-, rfl | rfl⟩ <;> exact h.1.plain h.1.now rfl
  leave _ state pkt c hstate h := by
    rcases hstate with ⟨-, rfl | rfl⟩ | ⟨hneeds, -⟩
    · exact ⟨h.1.sound, h.1.now⟩
    · exact ⟨h.1.sound, h.1.now⟩
    · refine ⟨h.1.sound, ?_⟩
      have hnow := h.1.now
      cases state <;> first | exact hnow | exact hnow.1 | cases hneeds
  error _ _ c h := by
    have hin : InStep c.uc := h.1.now
    rw [rxeQpError_ucView]
    exact ⟨{ h.1.sound with }, { hin with }⟩
  reset _ _ _ h := respReset_msg h.1

end Passes

/-! ### Runs -/

/-- What may happen: `rxe_rcv` queues requests that fit the type of the QP, the WQEs of an SRQ
have been posted, and no duplicate read is replayed in the middle of a SEND. -/
def MessageOk (sys : RespSys) : RespAct → Prop
  | .recv p => Fitting sys.ctx.uc p
  | .shareSrq srq => ∀ w ∈ srq.queue.live, ∃ wr, w = initRecvWqe wr
  | .pass => ∀ s, sys = .busy s → s.replayFits
  | _ => True

/-- A QP whose responder has received nothing. -/
structure FreshResponder (c : Ctx) : Prop where
  noOpcode : c.qp.resp.opcode = none
  noWqe : c.qp.resp.wqe = none
  noRes : c.qp.resp.res = none
  noPkts : c.qp.reqPkts = []
  rq : ∀ w ∈ c.qp.rq.live, ∃ wr, w = initRecvWqe wr
  srq : ∀ srq, c.qp.srq = some srq → ∀ w ∈ srq.queue.live, ∃ wr, w = initRecvWqe wr

theorem FreshResponder.idle {c : Ctx} (h : FreshResponder c) : RecvIdle c.uc := by
  have hfresh : ∀ w ∈ c.qp.rq.live, w.fresh := fun w hw => fresh_of_posted (h.rq w hw)
  have hopen : sendOpen c.uc.opcode = false := by
    rw [show c.uc.opcode = none from h.noOpcode]
    rfl
  have hs : RecvSound c.uc :=
    { opcode := fun o ho => by
        rw [show c.uc.opcode = none from h.noOpcode] at ho
        cases ho
      queue := fun p hp => by
        rw [show c.uc.reqPkts = [] from h.noPkts] at hp
        cases hp
      ref := fun r hr => by
        rw [show c.uc.wqe = none from h.noWqe] at hr
        cases hr
      tail := fun w hw => hfresh w (List.mem_of_mem_tail hw)
      head := fun _ w hw => hfresh w (List.mem_of_mem_head? hw)
      fits := fun w hw => (hfresh w hw).2
      srq := fun srq hsrq w hw => fresh_of_posted (h.srq srq hsrq w hw)
      res := fun _ => hopen
      begun := not_sendOpen hopen }
  refine ⟨hs, hs.inStep ?_⟩
  unfold UcView.recvWqe
  rw [show c.uc.wqe = none from h.noWqe]

/-- What happens between two passes leaves the message in progress alone. -/
structure MsgCarry (v v' : UcView) : Prop where
  sound : RecvSound v'
  type : v'.type = v.type
  opcode : v'.opcode = v.opcode
  status : v'.status = v.status
  res : v'.res = v.res
  execs : v'.execs = v.execs
  recvWqe : v'.recvWqe = v.recvWqe
  state : v'.state = v.state ∨ v'.state = .error
  head : (∀ w, v.rq.live.head? = some w → w.fresh) → ∀ w, v'.rq.live.head? = some w → w.fresh

namespace MsgCarry

variable {v v' : UcView}

theorem inStep (h : MsgCarry v v') (hin : InStep v) : InStep v' := by
  refine ⟨?_, ?_⟩
  · rw [h.opcode, h.recvWqe, h.type, h.execs]
    exact hin.opened
  · rw [h.opcode]
    exact fun hopen => h.head (hin.closed hopen)

theorem inSequence (h : MsgCarry v v') (hseq : InSequence v p) : InSequence v' p :=
  ⟨h.res.trans hseq.noRes, by rw [h.opcode]; exact hseq.place⟩

theorem loading (h : MsgCarry v v') (hload : Loading v p) : Loading v' p := by
  unfold Loading
  rw [h.recvWqe, h.type, h.execs]
  exact hload

theorem ended (h : MsgCarry v v') (hend : SendEnded v p) : SendEnded v' p := by
  refine ⟨hend.comp, ?_, ?_⟩
  · rw [h.recvWqe, h.type, h.execs]
    exact hend.sent
  · rw [h.execs]
    exact hend.last

theorem now (h : MsgCarry v v') {state : RespState} {pkt : Option Pkt} (hnow : RecvAt v state pkt) :
    RecvAt v' state pkt := by
  -- clause by clause; the error state only adds to what `chkResource` allows
  cases state with
  | chkPsn | chkOpSeq | errMissingOpcodeLastD1e => exact ⟨h.inStep hnow.1, h.res.trans hnow.2⟩
  | chkOpValid => exact ⟨h.inStep hnow.1, fun p hp => h.inSequence (hnow.2 p hp)⟩
  | chkResource =>
    refine ⟨h.inStep hnow.1, ?_⟩
    rcases h.state with hstate | hstate
    · exact hnow.2.imp hstate.trans fun hseq p hp => h.inSequence (hseq p hp)
    · exact Or.inl hstate
  | chkLength | chkRkey | execute =>
    exact ⟨h.inStep hnow.1, fun p hp =>
      ⟨h.inSequence (hnow.2 p hp).1, h.loading (hnow.2 p hp).2⟩⟩
  | readReply => exact ⟨h.inStep hnow.1, by rw [h.opcode]; exact hnow.2⟩
  | complete =>
    intro hsucc
    obtain ⟨p, hp, hend⟩ := hnow (h.status.symm.trans hsucc)
    exact ⟨p, hp, h.ended hend⟩
  | errMalformedWqe => trivial
  | _ => exact h.inStep hnow

end MsgCarry

section Run

variable {c : Ctx}

theorem postRecv_msg (hs : RecvSound c.uc) (wrs : List RecvWr) :
    MsgCarry c.uc (rxePostRecv c wrs).2.uc := by
  obtain ⟨rq, hc, hgrown⟩ := rxePostRecv_grown c wrs
  rw [hc]
  have hrecv : UcView.recvWqe { c.uc with rq } = c.uc.recvWqe := by
    unfold UcView.recvWqe
    cases hr : c.uc.wqe with
    | none => rfl
    | some r =>
      rcases hs.ref r hr with rfl | ⟨rfl, -, hne⟩
      · rfl
      · exact (hgrown.first hne).2
  have hs' : RecvSound { c.uc with rq } :=
    { hs with
      ref := fun r hr => (hs.ref r hr).imp_right fun href =>
        ⟨href.1, href.2.1, (hgrown.first href.2.2).1⟩
      tail := hgrown.tail hs.tail
      head := fun hwqe => hgrown.head (hs.head hwqe)
      fits := hgrown.fits hs.fits }
  exact ⟨hs', rfl, rfl, rfl, rfl, rfl, hrecv, Or.inl rfl, hgrown.head⟩

theorem change_msg {a : RespAct} {f : Ctx → Ctx} (hf : a.change = some f)
    (hok : MessageOk sys a) (hs : RecvSound sys.ctx.uc) :
    MsgCarry sys.ctx.uc (f sys.ctx).uc := by
  cases a with
  | call | pass => cases hf
  | recv p =>
    cases hf
    have hview := uc_said { sys.ctx with qp.reqPkts := sys.ctx.qp.reqPkts ++ [p] }
      (silent_one (e := .runResp) rfl)
    refine (congrArg (MsgCarry sys.ctx.uc) hview).mpr
      ⟨{ hs with queue := ?_ }, rfl, rfl, rfl, rfl, rfl, rfl, Or.inl rfl, id⟩
    intro q hq
    rcases List.mem_append.1 hq with hq | hq
    · exact hs.queue q hq
    · rw [List.mem_singleton.1 hq]
      exact hok
  | postRecv wrs =>
    cases hf
    exact postRecv_msg hs wrs
  | error =>
    cases hf
    rw [rxeQpError_ucView]
    exact ⟨{ hs with }, rfl, rfl, rfl, rfl, rfl, rfl, Or.inr rfl, id⟩
  | env dev skb cq =>
    cases hf
    exact ⟨{ hs with }, rfl, rfl, rfl, rfl, rfl, rfl, Or.inl rfl, id⟩
  -- the other QPs of the SRQ leave posted WQEs in it
  | shareSrq srq =>
    cases hf
    refine ⟨{ hs with ref := ?_, srq := ?_ }, rfl, rfl, rfl, rfl, rfl, rfl, Or.inl rfl, id⟩
    · intro r hr
      refine (hs.ref r hr).imp_right fun href => ⟨href.1, ?_, href.2.2⟩
      exact Option.map_eq_none_iff.2 href.2.1
    · intro srq' hsrq w hw
      obtain ⟨-, -, rfl⟩ := Option.map_eq_some_iff.1 hsrq
      exact fresh_of_posted (hok w hw)

/-- What holds of the system. -/
def RespSys.Receives (sys : RespSys) : Prop :=
  sys.Holds (fun state pkt c => RecvInv state pkt c.uc) fun c => RecvIdle c.uc

theorem RespSys.Receives.step {sys' : RespSys} {a : RespAct} (h : sys.Receives)
    (hok : MessageOk sys a) (hstep : respPass sys a = some sys') : sys'.Receives := by
  obtain ⟨c, rfl, rfl, rfl⟩ | ⟨s, rfl, rfl, rfl⟩ | ⟨f, hf, rfl⟩ := respPass_cases hstep
  · obtain ⟨hs, hin⟩ : RecvIdle c.uc := h
    unfold respEnter
    dsimp only
    split
    · exact ⟨hs, hin⟩
    · split
      · exact ⟨hs, nofun, hin⟩
      · exact ⟨hs, nofun, hin⟩
  · exact recvMsgRule.step (g := ()) ⟨h, hok s rfl⟩
  · cases sys with
    | idle c =>
      obtain ⟨hs, hin⟩ : RecvIdle c.uc := h
      have hcarry := change_msg hf hok hs
      exact ⟨hcarry.sound, hcarry.inStep hin⟩
    | busy s =>
      have hinv : RecvInv s.state s.pkt s.c.uc := h
      have hcarry : MsgCarry s.c.uc (f s.c).uc := change_msg hf hok hinv.sound
      refine ⟨hcarry.sound, fun p hp => ?_, hcarry.now hinv.now⟩
      show p.mask.req ∧ (f s.c).uc.type.carries p.opcode
      rw [hcarry.type]
      exact hinv.carried p hp

open Trace in
/-- The invariant holds in all runs. -/
theorem receives_reach {c₀ : Ctx} (h₀ : FreshResponder c₀)
    (hreach : Reach respPass MessageOk (.idle c₀) sys) : sys.Receives :=
  Reach.inv (I := RespSys.Receives) (show RespSys.Receives (.idle c₀) from h₀.idle)
    (fun _ _ _ h hok hstep => h.step hok hstep) hreach

end Run

/-- A test of the condition that leaves out duplicates. -/
def messageCheck (sys : RespSys) : RespAct → Bool
  | .call => true
  | .recv p => p.mask.req && sys.ctx.qp.type.carries p.opcode
  | .pass =>
    match sys with
    | .idle _ => false
    | .busy s => s.state ≠ .duplicateRequest
  | _ => false

theorem messageOk_of_check (sys : RespSys) (a : RespAct) (h : messageCheck sys a) :
    MessageOk sys a := by
  cases a with
  | call => trivial
  | recv p => exact Bool.and_eq_true_iff.1 h
  | pass =>
    rintro s rfl hstate
    exact absurd hstate (of_decide_eq_true h)
  | postRecv | error | env | shareSrq => cases h

end Rxe
