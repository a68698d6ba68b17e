/-
One call of the requester.

The tasks of a QP write many flags that only say who is to be woken up next.  `reqView`
leaves them out, together with the state of the allocator and of the CQ, so that most
branches of `rxe_requester` are steps that change nothing.

* `updateState_only` — after a packet at most the WQE at `req.wqe_index` has changed;
* `retry_resumes` — a retry finds the place of the next packet in the message.
-/
import Rxe.Qp

namespace Rxe

variable {wqe : SendWqe} {c : Ctx}

/-- The events of a send queue: requests, completions, and data copied for them. -/
def Event.isReq : Event → Bool
  | .sendReq .. | .sendCqe .. | .copied .. => true
  | _ => false

/-- What matters of a context for the requests it sends. -/
def reqView (c : Ctx) : Ctx :=
  { c with
    skb := []
    cq := []
    out := c.out.filter Event.isReq
    qp.needReqSkb := false
    qp.reqSkbOut := 0
    qp.req.waitFence := false
    qp.req.waitPsn := false
    qp.req.needRdAtomic := false
    qp.req.rdAtomic := 0
    qp.req.noackPkts := 0 }

theorem reqView_emit (c : Ctx) {e : Event} (h : e.isReq = false) :
    reqView (c.emit e) = reqView c := by
  have hout : (c.emit e).out.filter Event.isReq = c.out.filter Event.isReq := by
    rw [Ctx.emit, List.filter_append, List.filter_singleton, h]
    exact List.append_nil _
  exact congrArg (fun es => { reqView c with out := es }) hout

theorem reqDrain_ready (h : c.qp.req.state = .ready) : reqDrain c = c := by
  unfold reqDrain
  rw [if_neg (by simp [h])]

theorem armRetransTimer_view (c : Ctx) : reqView (armRetransTimer c) = reqView c := by
  unfold armRetransTimer
  split
  · exact reqView_emit c rfl
  · rfl

theorem updateState_type (c : Ctx) (pkt : Pkt) (payload : ℕ) :
    (updateState c pkt payload).qp.type = c.qp.type := by
  unfold updateState
  dsimp only
  cases c.qp.sq.get? c.qp.req.wqeIndex with
  | none => rfl
  | some wqe => exact congrArg (·.qp.type) (armRetransTimer_view (moveOn c _ _ _ _ _))

theorem reqComplete_rc (h : c.qp.type = .rc) : reqComplete c = some (true, c) := by
  rw [reqComplete, if_pos h]

/-! ### A call touches one WQE -/

/-- What a call of the requester leaves alone, apart from the send queue. -/
def reqEnv (c : Ctx) : Ctx :=
  { reqView c with
    out := []
    qp.sq := ⟨[], []⟩
    qp.req.wqeIndex := 0
    qp.req.psn := 0
    qp.req.opcode := none }

/-- The requests handed to the arbiter, each with the `ssn` of its WQE. -/
def sends (es : List Event) : List (Pkt × ℕ) :=
  es.filterMap fun
    | .sendReq pkt ssn => some (pkt, ssn)
    | _ => none

theorem sends_append (es es' : List Event) : sends (es ++ es') = sends es ++ sends es' :=
  List.filterMap_append

theorem sends_view (c : Ctx) : sends (reqView c).out = sends c.out := by
  show sends (c.out.filter Event.isReq) = _
  unfold sends
  rw [List.filterMap_filter]
  congr 1
  funext e
  cases e <;> rfl

theorem sends_of_view {c' : Ctx} (h : reqView c' = reqView c) : sends c'.out = sends c.out := by
  rw [← sends_view c', h, sends_view]

/-- Of the send queue, at most the WQE at index `i` changes, and what is sent is sent for
it. -/
structure OnlyWqe (i : ℕ) (c c' : Ctx) : Prop where
  others : ∀ j, j ≠ i → c'.qp.sq.live[j]? = c.qp.sq.live[j]?
  ssn : c'.qp.sq.live.map SendWqe.ssn = c.qp.sq.live.map SendWqe.ssn
  free : c'.qp.sq.free = c.qp.sq.free
  env : reqEnv c' = reqEnv c
  sent : ∃ es, sends c'.out = sends c.out ++ es ∧
    ∀ p ∈ es, (c.qp.sq.live[i]?).map SendWqe.ssn = some p.2

namespace OnlyWqe

variable {i : ℕ} {c c' c'' : Ctx}

theorem of_view (h : reqView c' = reqView c) : OnlyWqe i c c' := by
  have hsq : c'.qp.sq = c.qp.sq := congrArg (·.qp.sq) h
  refine ⟨fun j _ => by rw [hsq], by rw [hsq], by rw [hsq], by rw [reqEnv, h]; rfl, [], ?_, ?_⟩
  · rw [← sends_view c', h, sends_view, List.append_nil]
  · intro p hp
    cases hp

theorem trans (h : OnlyWqe i c c') (h' : OnlyWqe i c' c'') : OnlyWqe i c c'' := by
  obtain ⟨es, hes, hs⟩ := h.sent
  obtain ⟨es', hes', hs'⟩ := h'.sent
  refine ⟨fun j hj => (h'.others j hj).trans (h.others j hj), h'.ssn.trans h.ssn,
    h'.free.trans h.free, h'.env.trans h.env, es ++ es', ?_, ?_⟩
  · rw [hes', hes, List.append_assoc]
  · intro p hp
    rcases List.mem_append.1 hp with hp | hp
    · exact hs p hp
    · have hmap := congrArg (·[i]?) h.ssn
      simp only [List.getElem?_map] at hmap
      rw [← hmap]
      exact hs' p hp

theorem setWqe (hi : i < c.qp.sq.live.length) {f : SendWqe → SendWqe}
    (hf : ∀ w, (f w).ssn = w.ssn) : OnlyWqe i c (c.setWqe i f) := by
  have hsq : (c.setWqe i f).qp.sq = { c.qp.sq with live := c.qp.sq.live.modify i f } :=
    RingBuf.modify_of_lt f hi
  refine ⟨fun j hj => ?_, c.qp.sq.modify_map_live i hf, by rw [hsq], rfl, [],
    (List.append_nil _).symm, fun p hp => ?_⟩
  · rw [hsq]
    exact List.getElem?_modify_ne f c.qp.sq.live (Ne.symm hj)
  · cases hp

theorem live_length (h : OnlyWqe i c c') : c'.qp.sq.live.length = c.qp.sq.live.length := by
  simpa using congrArg List.length h.ssn

end OnlyWqe

section Only

variable {c c' : Ctx} {w wqe : SendWqe} {i : ℕ}

theorem moveOn_only {w' : SendWqe} (hi : i < c.qp.sq.live.length)
    (hw : c.qp.sq.live[i]? = some w) (hssn : w'.ssn = w.ssn) (psn : ℕ) (opcode : Opcode)
    (next : ℕ) : OnlyWqe i c (moveOn c i w' psn opcode next) := by
  have hsq : (moveOn c i w' psn opcode next).qp.sq =
      { c.qp.sq with live := c.qp.sq.live.modify i fun _ => w' } := RingBuf.modify_of_lt _ hi
  refine ⟨fun j hj => ?_, ?_, by rw [hsq], rfl, [], (List.append_nil _).symm, fun p hp => ?_⟩
  · rw [hsq]
    exact List.getElem?_modify_ne _ c.qp.sq.live (Ne.symm hj)
  · rw [hsq]
    refine List.ext_getElem? fun j => ?_
    by_cases hij : i = j
    · subst hij
      simp [hw, hssn]
    · cases c.qp.sq.live[j]? <;> simp [hij]
  · cases hp

theorem updateState_view (pkt : Pkt) (payload : ℕ)
    (hw : c.qp.sq.get? c.qp.req.wqeIndex = some w) :
    ∃ w' psn next, w' = updateWqe c.qp.type c.qp.req.psn (packetsLeft c.qp.mtu w.dma.resid payload)
        (rxeOpcodeMask pkt.opcode) w ∧
      psn = (if (rxeOpcodeMask pkt.opcode).read then
          psnMask (w'.firstPsn + packetsLeft c.qp.mtu w.dma.resid payload)
        else psnMask (c.qp.req.psn + 1)) ∧
      next = (if (rxeOpcodeMask pkt.opcode).end_ then (c.qp.req.wqeIndex + 1) % c.qp.sq.slots
        else c.qp.req.wqeIndex) ∧
      reqView (updateState c pkt payload) =
        reqView (moveOn c c.qp.req.wqeIndex w' psn pkt.opcode next) := by
  refine ⟨_, _, _, rfl, rfl, rfl, ?_⟩
  unfold updateState
  dsimp only
  rw [hw]
  exact armRetransTimer_view _

theorem updateState_sends (pkt : Pkt) (payload ssn : ℕ)
    (hw : c.qp.sq.get? c.qp.req.wqeIndex = some w) :
    sends ((updateState c pkt payload).emit (.sendReq pkt ssn)).out =
      sends c.out ++ [(pkt, ssn)] := by
  obtain ⟨w', psn, next, -, -, -, hview⟩ := updateState_view pkt payload hw
  rw [Ctx.emit, sends_append, sends_of_view hview]
  rfl

theorem updateState_only (pkt : Pkt) (payload : ℕ)
    (hw : c.qp.sq.live[c.qp.req.wqeIndex]? = some w) :
    OnlyWqe c.qp.req.wqeIndex c (updateState c pkt payload) ∧
      ((updateState c pkt payload).qp.req.wqeIndex = c.qp.req.wqeIndex ∨
        (updateState c pkt payload).qp.req.wqeIndex = (c.qp.req.wqeIndex + 1) % c.qp.sq.slots) := by
  have hi : c.qp.req.wqeIndex < c.qp.sq.live.length := (List.getElem?_eq_some_iff.1 hw).1
  obtain ⟨w', psn, next, hw', -, hnext, hview⟩ :=
    updateState_view pkt payload ((RingBuf.get?_of_lt hi).trans hw)
  have hssn : w'.ssn = w.ssn := by
    rw [hw', updateWqe]
    split <;> rfl
  refine ⟨(moveOn_only hi hw hssn psn pkt.opcode next).trans (.of_view hview), ?_⟩
  have hindex : (updateState c pkt payload).qp.req.wqeIndex = next :=
    congrArg (·.qp.req.wqeIndex) hview
  rw [hindex, hnext]
  split
  · exact Or.inr rfl
  · exact Or.inl rfl

theorem OnlyWqe.sendReq (pkt : Pkt) (hssn : (c.qp.sq.live[i]?).map SendWqe.ssn = some wqe.ssn) :
    OnlyWqe i c (c.emit (.sendReq pkt wqe.ssn)) := by
  refine ⟨fun _ _ => rfl, rfl, rfl, rfl, [(pkt, wqe.ssn)], sends_append _ _, fun p hp => ?_⟩
  rw [List.mem_singleton.1 hp]
  exact hssn

/-- What a call of the requester leaves behind: it has touched one WQE and perhaps gone on
to the next, or it has called the completer for a WQE whose data cannot be had. -/
def CalledOnly (c c' : Ctx) : Prop :=
  (OnlyWqe c.qp.req.wqeIndex c c' ∧ (c'.qp.req.wqeIndex = c.qp.req.wqeIndex ∨
    c.qp.req.wqeIndex < c.qp.sq.live.length ∧
      c'.qp.req.wqeIndex = (c.qp.req.wqeIndex + 1) % c.qp.sq.slots)) ∨
  ∃ c₂ b', OnlyWqe c.qp.req.wqeIndex c c₂ ∧ c₂.qp.req.wqeIndex = c.qp.req.wqeIndex ∧
    rxeCompleter c₂ = some (b', c')

theorem CalledOnly.of_view (h : reqView c' = reqView c) : CalledOnly c c' :=
  Or.inl ⟨.of_view h, Or.inl (congrArg (·.qp.req.wqeIndex) h)⟩

theorem CalledOnly.after {c₁ : Ctx} (h : OnlyWqe c.qp.req.wqeIndex c c₁)
    (hi : c₁.qp.req.wqeIndex = c.qp.req.wqeIndex) (h' : CalledOnly c₁ c') : CalledOnly c c' := by
  have hslots : c₁.qp.sq.slots = c.qp.sq.slots := by
    rw [RingBuf.slots, RingBuf.slots, h.live_length, h.free]
  unfold CalledOnly at h'
  rw [hi, hslots, h.live_length] at h'
  rcases h' with ⟨honly, hindex⟩ | ⟨c₂, b', honly, hindex, hcomp⟩
  · exact Or.inl ⟨h.trans honly, hindex⟩
  · exact Or.inr ⟨c₂, b', h.trans honly, hindex, hcomp⟩

end Only

/-! ### A retry -/

/-- The part of a cursor that does not move. -/
def DmaInfo.start (dma : DmaInfo) : DmaInfo := { dma with resid := 0, curSge := 0, sgeOffset := 0 }

/-- What a WQE asks for: the part that does not change while it is processed. -/
def SendWqe.job (w : SendWqe) : SendWqe := { ibwr := w.ibwr, ssn := w.ssn, dma := w.dma.start }

theorem skipData_start (w : SendWqe) (n : ℕ) : (skipData w n).start = w.dma.start := by
  unfold skipData
  split
  · rfl
  · unfold advanceDmaData
    split <;> rfl

theorem skipData_of_fill {c : Ctx} {w : SendWqe} {n : ℕ} {dma : DmaInfo} {data : List UInt8}
    (h : fillData c w n = (dma, data, .ok ())) : skipData w n = dma := by
  unfold fillData at h
  unfold skipData
  split at h
  · next hinline =>
    cases h
    exact if_pos hinline
  · next hinline =>
    rw [if_neg hinline]
    exact advanceDmaData_of_copy h

/-- A packet of a message is sent: `req.opcode` and the WQE before and after. -/
def SendsPacket (type : QpType) (mtu : ℕ) (s s' : Option Opcode × SendWqe) : Prop :=
  s'.1 = nextOpcode type mtu s.1 s.2 ∧ s'.2.ibwr = s.2.ibwr ∧
    ∃ c data, fillData c s.2 (min s.2.dma.resid mtu) = (s'.2.dma, data, .ok ())

theorem nextOpcode_congr {type : QpType} {mtu : ℕ} {w w' : SendWqe} (op : Option Opcode)
    (hibwr : w.ibwr = w'.ibwr) (hdma : w.dma = w'.dma) :
    nextOpcode type mtu op w = nextOpcode type mtu op w' := by
  unfold nextOpcode
  rw [hibwr, hdma]

theorem retryFirstWriteSend_sent {type : QpType} {mtu n : ℕ} {mask : WrMask}
    (sent : ℕ → Option Opcode × SendWqe) (s : Option Opcode × SendWqe)
    (hs : s.1 = (sent 0).1 ∧ s.2.ibwr = (sent 0).2.ibwr ∧ s.2.dma = (sent 0).2.dma)
    (hsent : ∀ i < n, SendsPacket type mtu (sent i) (sent (i + 1))) :
    (retryFirstWriteSend type mtu mask n s).1 = (sent n).1 ∧
      (retryFirstWriteSend type mtu mask n s).2.ibwr = (sent n).2.ibwr ∧
      (retryFirstWriteSend type mtu mask n s).2.dma = (sent n).2.dma := by
  induction n generalizing sent s with
  | zero => exact hs
  | succ n ih =>
    obtain ⟨hop, hibwr, hdma⟩ := hs
    obtain ⟨hop', hibwr', c, data, hdata⟩ := hsent 0 (Nat.succ_pos n)
    refine ih (fun i => sent (i + 1)) (retrySkip type mtu mask s)
      ⟨?_, hibwr.trans hibwr'.symm, ?_⟩ fun i hi => hsent (i + 1) (Nat.succ_lt_succ hi)
    · rw [hop', ← hop]
      exact nextOpcode_congr s.1 hibwr hdma
    · rw [← skipData_of_fill hdata, ← hdma]
      unfold skipData
      rw [← hibwr, ← hdma]
      rfl

/-- The first `n` packets of the message of a WQE, one after the other: `sent i` is `req.opcode`
and the WQE before packet `i`.  The message starts at its first byte, and the opcode of its first
packet is not one that goes on with the message before. -/
structure MessageSent (type : QpType) (mtu n : ℕ) (wqe : SendWqe)
    (sent : ℕ → Option Opcode × SendWqe) : Prop where
  ibwr : (sent 0).2.ibwr = wqe.ibwr
  dma : (sent 0).2.dma = { wqe.dma with resid := wqe.dma.length, curSge := 0, sgeOffset := 0 }
  first : nextOpcode type mtu (sent 0).1 (sent 0).2 = nextOpcode type mtu none (sent 0).2
  next : ∀ i < n, SendsPacket type mtu (sent i) (sent (i + 1))

/-- `retryWqe` of the SEND or WRITE at the head of the queue: as in `req_retry`, `req.opcode` is -1
before the message is gone through again. -/
theorem retryWqe_sent {type : QpType} {mtu n : ℕ} {sent : ℕ → Option Opcode × SendWqe}
    (hkind : (wrOpcodeMask wqe.ibwr.opcode type).writeOrSend)
    (hsent : MessageSent type mtu n wqe sent) :
    (retryWqe type mtu n true none wqe).1 = (if n = 0 then none else (sent n).1) ∧
      (retryWqe type mtu n true none wqe).2.ibwr = (sent n).2.ibwr ∧
      (retryWqe type mtu n true none wqe).2.dma = (sent n).2.dma := by
  have hread : (wrOpcodeMask wqe.ibwr.opcode type).read = false := by
    generalize wqe.ibwr.opcode = o at hkind
    cases type <;> cases o <;> first | rfl | cases hkind
  unfold retryWqe retryRewind
  simp only [hkind, hread, Bool.not_false, Bool.or_true, Bool.true_and, if_true]
  -- the same packets, as if no message had been before this one
  refine retryFirstWriteSend_sent (fun i => (if i = 0 then none else (sent i).1, (sent i).2)) _
    ⟨rfl, hsent.ibwr.symm, hsent.dma.symm⟩ fun i hi => ?_
  obtain ⟨hop, hrest⟩ := hsent.next i hi
  refine ⟨?_, hrest⟩
  show (if i + 1 = 0 then none else (sent (i + 1)).1) = _
  rw [if_neg (Nat.succ_ne_zero i), hop]
  by_cases hzero : i = 0
  · rw [if_pos hzero, hzero]
    exact hsent.first
  · rw [if_neg hzero]

theorem retryRewind_job (first : Bool) (mask : WrMask) (w : SendWqe) :
    (retryRewind first mask w).job = w.job := by
  unfold retryRewind
  split <;> rfl

section Retry

variable {β : Type} {g : SendWqe → β} {type : QpType} {mtu npsn : ℕ}

theorem retryFirstWriteSend_map {mask : WrMask}
    (hskip : ∀ s, g (retrySkip type mtu mask s).2 = g s.2)
    (n : ℕ) : ∀ s, g (retryFirstWriteSend type mtu mask n s).2 = g s.2 := by
  induction n with
  | zero => exact fun s => rfl
  | succ n ih => exact fun s => (ih _).trans (hskip s)

theorem retryWqe_map (hskip : ∀ mask s, g (retrySkip type mtu mask s).2 = g s.2)
    (hrewind : ∀ first mask w, g (retryRewind first mask w) = g w)
    (hpost : ∀ w iova, g { w with iova, state := .posted } = g w) (first : Bool)
    (op : Option Opcode) (w : SendWqe) : g (retryWqe type mtu npsn first op w).2 = g w := by
  refine (hpost _ _).trans ?_
  split
  · exact (retryFirstWriteSend_map (hskip _) _ _).trans (hrewind _ _ _)
  · exact hrewind _ _ _

theorem retryWqe_job (type : QpType) (mtu npsn : ℕ) (first : Bool) (op : Option Opcode)
    (w : SendWqe) : (retryWqe type mtu npsn first op w).2.job = w.job := by
  refine retryWqe_map (fun mask s => ?_) retryRewind_job (fun _ _ => rfl) first op w
  exact congrArg (fun dma => ({ ibwr := s.2.ibwr, ssn := s.2.ssn, dma := dma } : SendWqe))
    (skipData_start s.2 (min s.2.dma.resid mtu))

theorem retryLoop_map
    (hg : ∀ first op w, g (retryWqe type mtu npsn first op w).2 = g w) (ws : List SendWqe) :
    ∀ (first : Bool) (op : Option Opcode),
      (retryLoop type mtu npsn first op ws).2.map g = ws.map g := by
  induction ws with
  | nil => exact fun first op => rfl
  | cons w ws ih =>
    intro first op
    unfold retryLoop
    split
    · rfl
    · exact congrArg (g w :: ·) (ih first op)
    · rw [List.map_cons, List.map_cons, ih, hg]

end Retry

theorem retryLoop_opcode (type : QpType) (mtu npsn : ℕ) (op : Option Opcode) (ws : List SendWqe) :
    (retryLoop type mtu npsn false op ws).1 = op := by
  induction ws with
  | nil => rfl
  | cons w ws ih =>
    unfold retryLoop
    split
    · rfl
    · exact ih
    · exact ih

theorem retryLoop_job (type : QpType) (mtu npsn : ℕ) (ws : List SendWqe) (first : Bool)
    (op : Option Opcode) :
    (retryLoop type mtu npsn first op ws).2.map SendWqe.job = ws.map SendWqe.job :=
  retryLoop_map (retryWqe_job type mtu npsn) ws first op

theorem map_ssn_of_job {ws ws' : List SendWqe}
    (h : ws'.map SendWqe.job = ws.map SendWqe.job) :
    ws'.map SendWqe.ssn = ws.map SendWqe.ssn := by
  have hssn := congrArg (List.map SendWqe.ssn) h
  rwa [List.map_map, List.map_map] at hssn

theorem reqRetry_cons {w : SendWqe} {rest : List SendWqe} (hlive : c.qp.sq.live = w :: rest)
    (hposted : w.state ≠ .posted) (hdone : w.state ≠ .done) :
    ∃ s r, s = retryWqe c.qp.type c.qp.mtu (psnSub c.qp.comp.psn w.firstPsn) true none w ∧
      r = retryLoop c.qp.type c.qp.mtu (psnSub c.qp.comp.psn w.firstPsn) false s.1 rest ∧
      reqRetry c =
        { c with
          qp.sq.live := s.2 :: r.2
          qp.req.wqeIndex := 0
          qp.req.psn := c.qp.comp.psn
          qp.req.opcode := r.1 } := by
  refine ⟨_, _, rfl, rfl, ?_⟩
  have hhead : c.sqHead = some w := by
    rw [Ctx.sqHead, hlive]
    rfl
  have hloop : ∀ npsn, retryLoop c.qp.type c.qp.mtu npsn true none (w :: rest) =
      ((retryLoop c.qp.type c.qp.mtu npsn false
          (retryWqe c.qp.type c.qp.mtu npsn true none w).1 rest).1,
        (retryWqe c.qp.type c.qp.mtu npsn true none w).2 ::
          (retryLoop c.qp.type c.qp.mtu npsn false
            (retryWqe c.qp.type c.qp.mtu npsn true none w).1 rest).2) := by
    intro npsn
    cases hstate : w.state with
    | posted => exact absurd hstate hposted
    | done => exact absurd hstate hdone
    | processing | pending | error => rw [retryLoop, hstate]
  unfold reqRetry
  rw [hhead]
  dsimp only
  rw [hlive, hloop]

/-- A retry takes the SEND or WRITE at the head of the queue back to where it was before the packet
that is expected to be acknowledged next was sent, wherever it is now: the cursor is the same, and
so is the opcode that `next_opcode` then chooses. -/
theorem retry_resumes (c : Ctx) (wqe : SendWqe) (rest : List SendWqe)
    (sent : ℕ → Option Opcode × SendWqe) (hlive : c.qp.sq.live = wqe :: rest)
    (hposted : wqe.state ≠ .posted) (hdone : wqe.state ≠ .done)
    (hkind : (wrOpcodeMask wqe.ibwr.opcode c.qp.type).writeOrSend)
    (hsent : MessageSent c.qp.type c.qp.mtu (psnSub c.qp.comp.psn wqe.firstPsn) wqe sent) :
    let n := psnSub c.qp.comp.psn wqe.firstPsn
    ∃ w, (reqRetry c).sqHead = some w ∧ w.state = .posted ∧ w.dma = (sent n).2.dma ∧
      (reqRetry c).qp.req.wqeIndex = 0 ∧ (reqRetry c).qp.req.psn = c.qp.comp.psn ∧
      (reqRetry c).qp.req.opcode = (if n = 0 then none else (sent n).1) ∧
      nextOpcode c.qp.type c.qp.mtu (reqRetry c).qp.req.opcode w =
        nextOpcode c.qp.type c.qp.mtu (sent n).1 (sent n).2 := by
  intro n
  obtain ⟨s, r, hs, hr, hretry⟩ := reqRetry_cons hlive hposted hdone
  obtain ⟨hop, hibwr, hdma⟩ := retryWqe_sent hkind hsent
  rw [← hs] at hop hibwr hdma
  have hop' : r.1 = if n = 0 then none else (sent n).1 := by
    rw [hr, retryLoop_opcode, hop]
  rw [hretry]
  refine ⟨s.2, rfl, by rw [hs]; rfl, hdma, rfl, rfl, hop', ?_⟩
  dsimp only
  rw [hop', nextOpcode_congr _ hibwr hdma]
  split
  · next hzero =>
    show nextOpcode _ _ none (sent n).2 = _
    rw [hzero, hsent.first]
  · rfl

/-- An inline SEND of eight bytes in packets of four, after a SEND of one packet.  Both packets
have been sent, and the first is acknowledged. -/
def resumeQp : Ctx :=
  { qp :=
      { type := .rc
        mtu := 4
        sq := ⟨[{ ibwr := { opcode := .send, sendFlags := { inline := true } }, state := .pending
                  firstPsn := 5, dma := { length := 8, sgeOffset := 8 } }], []⟩
        rq := ⟨[], []⟩
        req := { opcode := some .rcSendLast, psn := 7 }
        comp := { psn := 6 } } }

/-- The retry goes on with the second packet. -/
theorem retry_resumes_inline : ∃ w, (reqRetry resumeQp).sqHead = some w ∧
    w.dma = { length := 8, resid := 4, sgeOffset := 4 } ∧
    nextOpcode .rc 4 (reqRetry resumeQp).qp.req.opcode w = some .rcSendLast := by
  have hn : psnSub resumeQp.qp.comp.psn 5 = 1 := by decide
  have h := retry_resumes resumeQp _ _
    (fun i => (if i = 0 then some .rcSendOnly else some .rcSendFirst,
      { ibwr := { opcode := .send, sendFlags := { inline := true } }
        dma := { length := 8, resid := 8 - 4 * i, sgeOffset := 4 * i } }))
    rfl nofun nofun rfl
  dsimp only at h
  rw [hn] at h
  obtain ⟨w, hw, -, hdma, -, -, -, hop⟩ := h ⟨rfl, rfl, rfl, fun i hi => by
    obtain rfl : i = 0 := Nat.lt_one_iff.1 hi
    exact ⟨rfl, rfl, resumeQp, _, rfl⟩⟩
  exact ⟨w, hw, hdma, hop⟩

end Rxe
