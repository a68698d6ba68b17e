/-
What the requester and the completer leave alone.

`SendSide` relates the context before and after an activity of the send side: the receive
side is untouched, the WQEs that leave the send queue leave it from its head, and each of
them that asks for a completion is reported by one, in the same order.

The functions of `rxe_comp.c` and `rxe_req.c` are made of few effects on the rest of the QP.
`SendRel` is a relation between contexts that contains these effects and is transitive; it
then contains what every one of the functions does.  `SendSide` is such a relation as long
as the QP is not reset, and a modify verb keeps to it too.

* `rxeCompleter_rel`, `rxeRequester_rel` — a call of a task, for any such relation;
* `sideRel`, `fixedRel` — `SendSide` and what no task changes (`Ctx.fixed`);
* `rxeQpFromAttr_side`
-/
import Rxe.ReqStep
import Rxe.RespPass

namespace Rxe

variable {r : Bool × Ctx} {w : SendWqe} {c : Ctx}

/-- What identifies a WQE: its number and the request it was posted for. -/
def SendWqe.ident (w : SendWqe) : ℕ × SendWr := (w.ssn, w.ibwr)

/-- A send completion, with the WQE it reports. -/
def Event.sendCqe? : Event → Option (Wc × SendWqe)
  | .sendCqe wc w => some (wc, w)
  | _ => none

/-- The send completions among some events. -/
def sendCqes (es : List Event) : List (Wc × SendWqe) := es.filterMap Event.sendCqe?

theorem sendCqes_append (es es' : List Event) :
    sendCqes (es ++ es') = sendCqes es ++ sendCqes es' :=
  List.filterMap_append ..

/-- The completion of a request is to be reported. -/
def signals (sigAll : Bool) (id : ℕ × SendWr) : Bool := sigAll || id.2.sendFlags.signaled

/-- What a completion says about the WQE it reports. -/
def names (p : Wc × SendWqe) : ℕ × ℕ × SendWr := (p.1.wrId, p.2.ident)

/-- The completions that WQEs leaving the queue ask for. -/
def expected (sigAll : Bool) (gone : List (ℕ × SendWr)) : List (ℕ × ℕ × SendWr) :=
  (gone.filter (signals sigAll)).map fun id => (id.2.wrId, id)

theorem expected_append (sigAll : Bool) (gone gone' : List (ℕ × SendWr)) :
    expected sigAll (gone ++ gone') = expected sigAll gone ++ expected sigAll gone' := by
  rw [expected, List.filter_append, List.map_append]
  rfl

/-- The identities of the queued WQEs. -/
def Ctx.queued (c : Ctx) : List (ℕ × SendWr) := c.qp.sq.live.map SendWqe.ident

/-- No completion finds the CQ full. -/
def Ctx.roomy (c : Ctx) : Prop := ∀ b ∈ c.cq, b = true

/-- An activity of the send side. -/
structure SendSide (c c' : Ctx) : Prop where
  rq : c'.qp.rq = c.qp.rq
  srq : c'.qp.srq = c.qp.srq
  wqe : c'.qp.resp.wqe = c.qp.resp.wqe
  sigAll : c'.qp.sqSigAll = c.qp.sqSigAll
  valid : c'.qp.valid = c.qp.valid
  ssn : c'.qp.ssn = c.qp.ssn
  cq : c'.cq <:+ c.cq
  reqReset : c'.qp.req.state = .reset → c.qp.req.state = .reset
  respReset : c'.qp.resp.state = .reset → c.qp.resp.state = .reset
  order : ∃ gone es, c'.out = c.out ++ es ∧ Silent es ∧ c.queued = gone ++ c'.queued ∧
    (c.roomy → (sendCqes es).map names = expected c.qp.sqSigAll gone)

/-- What `SendSide` is about. -/
def sideView (c : Ctx) : RingBuf RecvWqe × Option Srq × Option RecvRef × Bool × Bool × ℕ ×
    List Bool × QpState × QpState × List (ℕ × SendWr) × List Event :=
  (c.qp.rq, c.qp.srq, c.qp.resp.wqe, c.qp.sqSigAll, c.qp.valid, c.qp.ssn, c.cq, c.qp.req.state,
    c.qp.resp.state, c.queued, c.out)

namespace SendSide

variable {c c' c'' : Ctx}

theorem of_view (h : sideView c' = sideView c) : SendSide c c' := by
  simp only [sideView, Prod.mk.injEq] at h
  obtain ⟨hrq, hsrq, hwqe, hsig, hvalid, hssn, hcq, hreq, hresp, hlive, hout⟩ := h
  exact
    { rq := hrq
      srq := hsrq
      wqe := hwqe
      sigAll := hsig
      valid := hvalid
      ssn := hssn
      cq := hcq ▸ List.suffix_rfl
      reqReset := fun h => hreq ▸ h
      respReset := fun h => hresp ▸ h
      order := ⟨[], [], by rw [hout, List.append_nil], silent_nil, hlive.symm, fun _ => rfl⟩ }

theorem refl (c : Ctx) : SendSide c c := of_view rfl

theorem roomy (h : SendSide c c') (hc : c.roomy) : c'.roomy := fun b hb => hc b (h.cq.subset hb)

theorem trans (h : SendSide c c') (h' : SendSide c' c'') : SendSide c c'' where
  rq := h'.rq.trans h.rq
  srq := h'.srq.trans h.srq
  wqe := h'.wqe.trans h.wqe
  sigAll := h'.sigAll.trans h.sigAll
  valid := h'.valid.trans h.valid
  ssn := h'.ssn.trans h.ssn
  cq := h'.cq.trans h.cq
  reqReset hr := h.reqReset (h'.reqReset hr)
  respReset hr := h.respReset (h'.respReset hr)
  order := by
    obtain ⟨gone, es, hout, hes, hlive, hcqes⟩ := h.order
    obtain ⟨gone', es', hout', hes', hlive', hcqes'⟩ := h'.order
    refine ⟨gone ++ gone', es ++ es', by rw [hout', hout, List.append_assoc],
      silent_append hes hes', by rw [hlive, hlive', List.append_assoc], fun hroom => ?_⟩
    rw [sendCqes_append, List.map_append, hcqes hroom, hcqes' (h.roomy hroom), h.sigAll,
      expected_append]

theorem emit (c : Ctx) {e : Event} (he : e.silent) (hcqe : e.sendCqe? = none) :
    SendSide c (c.emit e) :=
  { refl c with
    order := ⟨[], [e], rfl, silent_one he, rfl, fun _ => by
      rw [sendCqes, List.filterMap_cons_none hcqe]
      rfl⟩ }

theorem then_emit {e : Event} (h : SendSide c c') (he : e.silent) (hcqe : e.sendCqe? = none) :
    SendSide c (c'.emit e) :=
  h.trans (emit c' he hcqe)

end SendSide

/-- The QP is in use: it is valid, and in the reset state nothing is queued. -/
def Ctx.inUse (c : Ctx) : Prop := c.qp.valid ∧ (c.qp.req.state = .reset → c.qp.sq.live = [])

theorem SendSide.inUse {c' : Ctx} (h : SendSide c c') (huse : c.inUse) : c'.inUse := by
  refine ⟨h.valid ▸ huse.1, fun hreset => ?_⟩
  obtain ⟨gone, es, -, -, hqueued, -⟩ := h.order
  have hnil : c.queued = [] := by rw [Ctx.queued, huse.2 (h.reqReset hreset)]; rfl
  rw [hnil] at hqueued
  exact List.map_eq_nil_iff.1 (List.append_eq_nil_iff.1 hqueued.symm).2

/-! ### The effects of the tasks -/

/-- What neither the requester nor the completer changes. -/
def Ctx.fixed (c : Ctx) : QpType × Bool × ℕ × Bool × QpAttr × Params :=
  (c.qp.type, c.qp.valid, c.qp.mtu, c.qp.sqSigAll, c.qp.attr, c.par)

/-- A context without what the tasks of the send side keep for themselves. -/
def sendView (c : Ctx) := (sideView c, c.fixed)

/-- A relation that contains the effects of the send side, on a QP with `U` where the tasks
may drop what is queued. -/
structure SendRel (U : Ctx → Prop) (R : Ctx → Ctx → Prop) : Prop where
  trans : ∀ {c c' c''}, R c c' → R c' c'' → R c c''
  quiet : ∀ {c c'}, sendView c' = sendView c → R c c'
  /-- an event other than a completion -/
  emit : ∀ c {e : Event}, e.silent → e.sendCqe? = none → R c (c.emit e)
  /-- the head of the send queue leaves, and its completion is posted if it asks for one -/
  retire : ∀ {c w}, c.sqHead = some w → R c (advanceSq (postSendCqe c w))
  error : ∀ c, R c (toErrorState c)
  drained : ∀ {c : Ctx}, c.qp.req.state = .drain → R c { c with qp.req.state := .drained }
  drop : ∀ {c : Ctx}, U c → c.qp.valid = false ∨ c.qp.req.state = .reset → R c (compDrop c)
  keep : ∀ {c c'}, R c c' → U c → U c'

theorem Ctx.live_of_head (hw : c.sqHead = some w) : ∃ rest, c.qp.sq.live = w :: rest :=
  List.head?_eq_some_iff.1 hw

theorem retire_side (hw : c.sqHead = some w) :
    SendSide c (advanceSq (postSendCqe c w)) := by
  obtain ⟨rest, hlive⟩ := Ctx.live_of_head hw
  have hqueued : c.queued = [w.ident] ++ c.qp.sq.pop.live.map SendWqe.ident := by
    rw [Ctx.queued, RingBuf.pop_live hlive, hlive]
    rfl
  unfold postSendCqe
  split
  · next hsig =>
    have hexp : expected c.qp.sqSigAll [w.ident] = [(w.ibwr.wrId, w.ident)] := by
      rw [expected, List.filter_cons_of_pos (by exact hsig)]
      rfl
    unfold Ctx.cqPost
    split
    · exact { SendSide.refl c with
        order := ⟨[w.ident], [.sendCqe (makeSendCqe w) w], rfl, silent_one rfl, hqueued,
          fun _ => hexp.symm⟩ }
    · next bs hcq =>
      exact { SendSide.refl c with
        cq := hcq ▸ List.suffix_cons true bs
        order := ⟨[w.ident], [.sendCqe (makeSendCqe w) w], rfl, silent_one rfl, hqueued,
          fun _ => hexp.symm⟩ }
    · next bs hcq =>
      exact { SendSide.refl c with
        cq := hcq ▸ List.suffix_cons false bs
        order := ⟨[w.ident], [.cqErr], rfl, silent_one rfl, hqueued, fun hroom => by
          -- a CQ with room refuses no entry
          have hfull := hroom false (by rw [hcq]; exact List.mem_cons_self)
          cases hfull⟩ }
  · next hsig =>
    exact { SendSide.refl c with
      order := ⟨[w.ident], [], (List.append_nil _).symm, silent_nil, hqueued, fun _ => by
        rw [expected, List.filter_cons_of_neg (by exact hsig)]
        rfl⟩ }

theorem sideRel : SendRel Ctx.inUse SendSide where
  trans := SendSide.trans
  quiet h := .of_view (congrArg Prod.fst h)
  emit c _ := SendSide.emit c
  retire := retire_side
  error c :=
    { SendSide.refl c with reqReset := fun h => (nomatch h), respReset := fun h => (nomatch h) }
  drained _ := { SendSide.refl _ with reqReset := fun h => (nomatch h) }
  drop {c} huse h := by
    have hnil : c.qp.sq.live = [] := huse.2 (h.resolve_left (by simp [huse.1]))
    unfold compDrop
    dsimp only
    rw [hnil]
    exact .of_view rfl
  keep h huse := h.inUse huse

theorem dropSq_qp (n : ℕ) : ∀ c : Ctx, ∃ req sq,
    dropSq n c = { c with qp.req := req, qp.sq := sq } ∧ req.state = c.qp.req.state := by
  induction n with
  | zero => exact fun c => ⟨c.qp.req, c.qp.sq, rfl, rfl⟩
  | succ n ih => exact fun c => ih (advanceSq c)

theorem fixedRel : SendRel (fun _ => True) fun c c' => c'.fixed = c.fixed where
  trans h h' := h'.trans h
  quiet h := congrArg Prod.snd h
  emit _ _ _ _ := rfl
  retire {c w} _ := by
    obtain ⟨cq, es, -, h⟩ := postSendCqe_frame c w
    rw [h]
    rfl
  error _ := rfl
  drained _ := rfl
  drop {c} _ _ := by
    obtain ⟨req, sq, h, -⟩ := dropSq_qp c.qp.sq.live.length { c with qp.respPkts := [] }
    unfold compDrop
    rw [h]
    rfl
  keep _ _ := trivial

/-- A relation that contains what the completer does to a WQE. -/
structure CalmRel (R : Ctx → Ctx → Prop) : Prop where
  trans : ∀ {c c' c''}, R c c' → R c' c'' → R c c''
  quiet : ∀ {c c'}, sendView c' = sendView c → R c c'
  retire : ∀ {c w}, c.sqHead = some w → R c (advanceSq (postSendCqe c w))
  copied : ∀ c pkt ssn, R c (c.emit (.copied pkt ssn))
  runReq : ∀ c, R c (c.emit .runReq)
  retrans : ∀ c, R c (c.emit .modRetransTimer)

/-- The QP may also go to the error state. -/
structure CoarseRel (R : Ctx → Ctx → Prop) : Prop extends CalmRel R where
  error : ∀ c, R c (toErrorState c)
  runComp : ∀ c, R c (c.emit .runComp)
  runResp : ∀ c, R c (c.emit .runResp)

theorem SendRel.coarse {U : Ctx → Prop} {R : Ctx → Ctx → Prop} (hR : SendRel U R) :
    CoarseRel R where
  trans := hR.trans
  quiet := hR.quiet
  retire := hR.retire
  copied c _ _ := hR.emit c rfl rfl
  runReq c := hR.emit c rfl rfl
  retrans c := hR.emit c rfl rfl
  error := hR.error
  runComp c := hR.emit c rfl rfl
  runResp c := hR.emit c rfl rfl

/-- The completer moves no state while it works on a WQE. -/
theorem statesRel : CalmRel fun c c' => (c'.qp.attr, c'.qp.req.state, c'.qp.resp.state) =
    (c.qp.attr, c.qp.req.state, c.qp.resp.state) where
  trans h h' := h'.trans h
  quiet h := by
    simp only [sendView, sideView, Ctx.fixed, Prod.mk.injEq] at h
    simp only [h]
  retire {c w} _ := by
    obtain ⟨cq, es, -, h⟩ := postSendCqe_frame c w
    rw [h]
    rfl
  copied _ _ _ := rfl
  runReq _ := rfl
  retrans _ := rfl

section Calm

variable {R : Ctx → Ctx → Prop} {c c' : Ctx} (hR : CalmRel R)

include hR

theorem CalmRel.refl (c : Ctx) : R c c := hR.quiet rfl

theorem CalmRel.then_run (h : R c c') : R c (c'.emit .runReq) := hR.trans h (hR.runReq c')

theorem CalmRel.setWqe (c : Ctx) (i : ℕ) {f : SendWqe → SendWqe} (hf : ∀ w, (f w).ident = w.ident) :
    R c (c.setWqe i f) := by
  refine hR.quiet ?_
  have hlive : (c.setWqe i f).queued = c.queued := RingBuf.modify_map_live c.qp.sq i hf
  unfold sendView sideView
  rw [hlive]
  rfl

/-! ### The completer -/

theorem wakeWaitFence_rel (c : Ctx) : R c (wakeWaitFence c) := by
  unfold wakeWaitFence
  split
  · exact hR.then_run (hR.quiet rfl)
  · exact hR.refl c

theorem wakeWaitPsn_rel (c : Ctx) : R c (wakeWaitPsn c) := by
  unfold wakeWaitPsn
  split
  · exact hR.then_run (hR.quiet rfl)
  · exact hR.refl c

theorem setStatus_rel (c : Ctx) (i : ℕ) (status : WcStatus) : R c (setStatus c i status) :=
  hR.setWqe c i fun _ => rfl

theorem doComplete_rel (c : Ctx) : R c (doComplete c) := by
  unfold doComplete
  split
  · exact hR.refl c
  · next hw => exact hR.trans (hR.retire hw) (wakeWaitFence_rel hR _)

theorem releaseRdAtomic_rel (c : Ctx) (w : SendWqe) : R c (releaseRdAtomic c w) := by
  have hset : R c (c.setWqe 0 fun w => { w with hasRdAtomic := false }) :=
    hR.setWqe c 0 fun _ => rfl
  unfold releaseRdAtomic
  split
  · dsimp only
    split
    · exact hR.then_run (hR.trans hset (hR.quiet rfl))
    · exact hR.trans hset (hR.quiet rfl)
  · exact hR.refl c

theorem advanceCompPsn_rel (c : Ctx) (pkt : Pkt) : R c (advanceCompPsn c pkt) := by
  unfold advanceCompPsn
  split
  · exact hR.quiet rfl
  · exact hR.refl c

theorem completeWqe_rel (c : Ctx) (pkt : Option Pkt) : R c (completeWqe c pkt).2 := by
  have hopcode : R c { c with qp.comp.opcode := none } := hR.quiet rfl
  unfold completeWqe
  refine hR.trans hopcode ?_
  split
  · exact doComplete_rel hR _
  · next pkt =>
    exact hR.trans (hR.trans (advanceCompPsn_rel hR _ pkt) (wakeWaitPsn_rel hR _))
      (doComplete_rel hR _)

theorem updateComp_rel (c : Ctx) (pkt : Pkt) : R c (updateComp c pkt) := by
  refine hR.trans ?_ (wakeWaitPsn_rel hR _)
  refine hR.trans ?_ (advanceCompPsn_rel hR _ pkt)
  exact hR.quiet rfl

theorem copyResponse_rel (c : Ctx) (pkt : Pkt) (w : SendWqe) (data : List UInt8)
    (next : DmaInfo → CompState) : R c (copyResponse c pkt w data next).2 := by
  have hset : ∀ (dev : Dev) (dma : DmaInfo),
      R c ({ c with dev }.setWqe 0 fun w => { w with dma }) := by
    intro dev dma
    refine hR.trans ?_ (hR.setWqe { c with dev } 0 fun w => rfl)
    exact hR.quiet rfl
  unfold copyResponse
  split
  · exact hset _ _
  · exact hR.trans (hset _ _) (hR.copied _ _ _)

theorem doAtomic_rel (c : Ctx) (pkt : Pkt) (w : SendWqe) : R c (doAtomic c pkt w).2 := by
  exact copyResponse_rel hR c pkt w _ _

theorem compCheckPsn_rel (c : Ctx) (pkt : Pkt) (w : SendWqe) : R c (compCheckPsn c pkt w).2 := by
  unfold compCheckPsn
  split
  · split
    · split
      · exact hR.refl c
      · exact hR.quiet rfl
    · exact hR.refl c
  · dsimp only
    split
    · exact hR.refl c
    · split <;> exact hR.refl c

theorem checkAcknowledge_rel (c : Ctx) (pkt : Pkt) : R c (checkAcknowledge c pkt).2 := by
  unfold checkAcknowledge
  split
  · exact hR.quiet rfl
  · split
    · exact hR.refl c
    · split
      · split
        · split
          · refine hR.trans ?_ (wakeWaitPsn_rel hR _)
            exact hR.quiet rfl
          · exact hR.refl c
        · split
          · exact setStatus_rel hR c 0 _
          · split <;> exact setStatus_rel hR c 0 _
      · exact hR.refl c

theorem checkAck_rel (c : Ctx) (pkt : Pkt) (w : SendWqe) : R c (checkAck c pkt w).2 := by
  -- a read response is taken, or refused for its kind
  have hread : ∀ p : Prop, ∀ _ : Decidable p, R c
      (if p then (CompState.read, resetRetryCounters c) else (.error, c)).2 := by
    intro p _
    split
    · exact hR.quiet rfl
    · exact hR.refl c
  unfold checkAck
  dsimp only
  split
  · exact hR.refl c
  · split
    · split
      · exact hR.refl c
      · exact hread _ _
    · split
      · exact hR.refl c
      · exact hread _ _
    · split
      · exact hR.refl c
      · exact hread _ _
    · exact hread _ _
    · split
      · exact hR.refl c
      · split
        · exact hR.quiet rfl
        · exact hR.refl c
    · exact checkAcknowledge_rel hR c pkt
    · exact hR.refl c

theorem flushSq_rel (n : ℕ) : ∀ c : Ctx, R c (flushSq n c) := by
  induction n with
  | zero => exact hR.refl
  | succ n ih =>
    intro c
    exact hR.trans (hR.trans (setStatus_rel hR c 0 _) (doComplete_rel hR _)) (ih _)

theorem compFlush_rel (c : Ctx) : R c (compFlush c) := by
  refine hR.trans ?_ (flushSq_rel hR _ _)
  exact hR.quiet rfl

theorem compExit_rel (c : Ctx) : R c (compExit c) := by
  unfold compExit
  split
  · exact hR.retrans c
  · exact hR.refl c

theorem compErrorRetry_rel (c : Ctx) : R c (compErrorRetry c) := by
  unfold compErrorRetry
  dsimp only
  split
  · exact hR.then_run (hR.quiet rfl)
  · exact hR.quiet rfl

theorem armRetransTimer_rel (c : Ctx) : R c (armRetransTimer c) := by
  unfold armRetransTimer
  split
  · exact hR.retrans c
  · exact hR.refl c

theorem takeSkb_rel (c : Ctx) : R c c.takeSkb.2 := by
  obtain ⟨skb, h⟩ := takeSkb_eq c
  rw [h]
  exact hR.quiet rfl

end Calm

theorem rxeQpError_rel {R : Ctx → Ctx → Prop} (hR : CoarseRel R) (c : Ctx) :
    R c (rxeQpError c) := by
  have herr := hR.trans (hR.error c) (hR.runResp _)
  refine hR.then_run ?_
  split
  · exact hR.trans herr (hR.runComp _)
  · exact hR.trans herr (compFlush_rel hR.toCalmRel _)

/-- The context after a pass of the completer. -/
def compCtx : CompCfg ⊕ Bool × Ctx → Ctx
  | .inl s => s.c
  | .inr r => r.2

section Send

variable {U : Ctx → Prop} {R : Ctx → Ctx → Prop} {c c' : Ctx} (hR : SendRel U R)

include hR

theorem SendRel.calm : CalmRel R := hR.coarse.toCalmRel

theorem SendRel.refl (c : Ctx) : R c c := hR.quiet rfl

theorem SendRel.then_emit {e : Event} (h : R c c') (he : e.silent) (hcqe : e.sendCqe? = none) :
    R c (c'.emit e) :=
  hR.trans h (hR.emit c' he hcqe)

theorem completeDrain_rel (c : Ctx) : R c (completeDrain c) := by
  unfold completeDrain
  split
  · next h => exact hR.then_emit (hR.drained h.1) rfl rfl
  · exact hR.refl c

theorem completeAck_rel (c : Ctx) (pkt : Pkt) (w : SendWqe) : R c (completeAck c pkt w).2 :=
  hR.trans (hR.trans (releaseRdAtomic_rel hR.calm c w) (completeDrain_rel hR _))
    (doComplete_rel hR.calm _)

theorem compRnrRetry_rel (c : Ctx) (pkt : Pkt) : R c (compRnrRetry c pkt) :=
  hR.then_emit (hR.quiet rfl) rfl rfl

theorem withPktWqe_rel {s : CompCfg} {f : Pkt → SendWqe → CompCfg ⊕ Bool × Ctx}
    (hf : ∀ pkt w, R s.c (compCtx (f pkt w))) : R s.c (compCtx (s.withPktWqe f)) := by
  unfold CompCfg.withPktWqe
  split
  · exact hf _ _
  · exact hR.refl s.c

omit hR in
theorem goto_rel {s : CompCfg} {r : CompState × Ctx} (h : R s.c r.2) : R s.c (compCtx (s.goto r)) :=
  h

theorem compStep_rel (s : CompCfg) : R s.c (compCtx (compStep s)) := by
  unfold compStep
  split
  · split
    · exact hR.refl s.c
    · exact hR.quiet rfl
  · exact hR.refl s.c
  · exact withPktWqe_rel hR fun pkt w => compCheckPsn_rel hR.calm s.c pkt w
  · exact withPktWqe_rel hR fun pkt w => checkAck_rel hR.calm s.c pkt w
  · exact withPktWqe_rel hR fun pkt w => copyResponse_rel hR.calm s.c pkt w pkt.payload _
  · exact withPktWqe_rel hR fun pkt w => goto_rel (doAtomic_rel hR.calm s.c pkt w)
  · exact withPktWqe_rel hR fun _ _ => hR.refl s.c
  · exact withPktWqe_rel hR fun pkt w => completeAck_rel hR s.c pkt w
  · exact completeWqe_rel hR.calm s.c s.pkt
  · split
    · exact hR.refl s.c
    · exact updateComp_rel hR.calm s.c _
  · exact hR.refl s.c
  · split
    · exact hR.refl s.c
    · exact compExit_rel hR.calm s.c
  · split
    · exact hR.refl s.c
    · split
      · exact hR.refl s.c
      · split
        · exact compErrorRetry_rel hR.calm s.c
        · exact setStatus_rel hR.calm s.c 0 _
  · refine withPktWqe_rel hR fun pkt w => ?_
    split
    · exact compRnrRetry_rel hR s.c pkt
    · exact setStatus_rel hR.calm s.c 0 _
  · exact hR.trans (doComplete_rel hR.calm s.c) (rxeQpError_rel hR.coarse _)

theorem rxeCompleter_rel (huse : U c) (h : rxeCompleter c = some r) : R c r.2 := by
  unfold rxeCompleter at h
  split at h
  · next hvalid =>
    cases h
    exact hR.drop huse (Or.inl hvalid)
  · split at h
    · cases h
      exact compFlush_rel hR.calm c
    · split at h
      · next hreset =>
        cases h
        exact hR.drop huse (Or.inr hreset)
      · dsimp only at h
        split at h
        · cases h
          exact hR.quiet rfl
        · refine Loop.run_inv (I := fun s : CompCfg => R c s.c) (Q := fun r => R c r.2) ?_ ?_
            (hR.quiet (c := c) rfl) h
          · intro s s' hs hstep
            exact hR.trans hs (by simpa only [hstep, compCtx] using compStep_rel hR s)
          · intro s r hs hstep
            exact hR.trans hs (by simpa only [hstep, compCtx] using compStep_rel hR s)

/-! ### The requester -/

theorem reqDrain_rel (c : Ctx) : R c (reqDrain c) := by
  unfold reqDrain
  split
  · next h => exact hR.then_emit (hR.drained h.1) rfl rfl
  · exact hR.refl c

theorem reqNextWqe_rel (c : Ctx) : R c (reqNextWqe c).2 := by
  unfold reqNextWqe
  dsimp only
  refine hR.trans (reqDrain_rel hR c) ?_
  generalize reqDrain c = c₁
  split
  · exact hR.refl c₁
  · split
    · exact hR.refl c₁
    · split
      · exact hR.refl c₁
      · split
        · exact hR.quiet rfl
        · exact hR.calm.setWqe c₁ _ fun _ => rfl

theorem reqRetry_rel (c : Ctx) : R c (reqRetry c) := by
  unfold reqRetry
  split
  · exact hR.refl c
  · next w hw =>
    have hjob := retryLoop_job c.qp.type c.qp.mtu (psnSub c.qp.comp.psn w.firstPsn) c.qp.sq.live
      true none
    have hident := congrArg (List.map SendWqe.ident) hjob
    rw [List.map_map, List.map_map] at hident
    refine hR.quiet ?_
    exact congrArg (fun ids => ((c.qp.rq, c.qp.srq, c.qp.resp.wqe, c.qp.sqSigAll, c.qp.valid,
      c.qp.ssn, c.cq, c.qp.req.state, c.qp.resp.state, ids, c.out), c.fixed)) hident

theorem checkDepth_rel (c : Ctx) (w : SendWqe) (opcode : Opcode) :
    R c (checkDepth c w opcode).2 := by
  unfold checkDepth
  split
  · unfold checkInitDepth
    split
    · exact hR.refl c
    · split
      · refine hR.trans (hR.calm.setWqe c c.qp.req.wqeIndex (f := fun w =>
          { w with hasRdAtomic := true }) fun _ => rfl) ?_
        exact hR.quiet rfl
      · exact hR.quiet rfl
  · exact hR.refl c

theorem initReqPacket_rel (c : Ctx) (w : SendWqe) (opcode : Opcode) (payload : ℤ) :
    R c (initReqPacket c w opcode payload).2 := by
  unfold initReqPacket
  split
  next ok c₁ hskb =>
    have hside := takeSkb_rel hR.calm c
    rw [hskb] at hside
    refine hR.trans hside ?_
    split
    · exact hR.refl c₁
    · split <;> exact hR.quiet rfl

theorem fillPacket_rel (c : Ctx) (w : SendWqe) (pkt : Pkt) (payload : ℕ) :
    R c (fillPacket c w pkt payload).2 := by
  unfold fillPacket
  split
  · split <;> exact hR.calm.setWqe c _ fun _ => rfl
  · exact hR.refl c

theorem SendRel.replaceWqe {i : ℕ} {w' : SendWqe} (hw : c.qp.sq.get? i = some w)
    (hident : w'.ident = w.ident) : R c (c.setWqe i fun _ => w') := by
  refine hR.quiet ?_
  have hlive : (c.setWqe i fun _ => w').queued = c.queued :=
    RingBuf.modify_map_live_of_get? hw hident
  unfold sendView sideView
  rw [hlive]
  rfl

omit hR in
theorem updateWqe_ident (type : QpType) (psn n : ℕ) (mask : HdrMask) (w : SendWqe) :
    (updateWqe type psn n mask w).ident = w.ident := by
  unfold updateWqe
  split <;> rfl

theorem updateState_rel (c : Ctx) (pkt : Pkt) (payload : ℕ) : R c (updateState c pkt payload) := by
  unfold updateState
  dsimp only
  split
  · exact hR.refl c
  · next w hw =>
    have hset := hR.replaceWqe hw (updateWqe_ident c.qp.type c.qp.req.psn
      (packetsLeft c.qp.mtu w.dma.resid payload) (rxeOpcodeMask pkt.opcode) w)
    refine hR.trans ?_ (armRetransTimer_rel hR.calm _)
    exact hR.trans hset (hR.quiet rfl)

theorem fakeUdSend_rel (c : Ctx) : R c (fakeUdSend c) := by
  refine hR.trans (hR.calm.setWqe c c.qp.req.wqeIndex (f := fun w =>
    { w with firstPsn := c.qp.req.psn, lastPsn := c.qp.req.psn, state := .done,
             status := .success }) fun _ => rfl) ?_
  exact hR.quiet rfl

theorem completeAll_rel (n : ℕ) : ∀ {c c' : Ctx}, U c → completeAll n c = some c' → R c c' := by
  induction n with
  | zero =>
    intro c c' _ h
    cases h
  | succ n ih =>
    intro c c' huse h
    unfold completeAll at h
    split at h
    · cases h
    · next c₁ hcall =>
      have hcomp := rxeCompleter_rel hR huse hcall
      exact hR.trans hcomp (ih (hR.keep hcomp huse) h)
    · next c₁ hcall =>
      cases h
      exact rxeCompleter_rel hR huse hcall

theorem reqComplete_rel (huse : U c) (h : reqComplete c = some r) : R c r.2 := by
  unfold reqComplete at h
  split at h
  · cases h
    exact hR.refl c
  · obtain ⟨c₁, hall, rfl⟩ := Option.map_eq_some_iff.1 h
    exact completeAll_rel hR _ huse hall

theorem reqSend_rel {opcode : Opcode} {payload : ℤ} (huse : U c)
    (h : reqSend c w opcode payload = some r) : R c r.2 := by
  have hinit := initReqPacket_rel hR c w opcode payload
  unfold reqSend at h
  split at h
  · next c₁ hpkt =>
    rw [hpkt] at hinit
    cases h
    exact hR.trans hinit (hR.quiet rfl)
  · next pkt c₁ hpkt =>
    rw [hpkt] at hinit
    have hfill := hR.trans hinit (fillPacket_rel hR c₁ w pkt payload.toNat)
    split at h
    · next c₂ hdata =>
      rw [hdata] at hfill
      -- data that cannot be fetched fails the WQE, and the completer runs at once
      have herr := hR.trans hfill (hR.calm.setWqe c₂ c₂.qp.req.wqeIndex (f := fun w =>
        { w with status := .locProtErr, state := .error }) fun _ => rfl)
      obtain ⟨r', hcall, rfl⟩ := Option.map_eq_some_iff.1 h
      have hcomp := rxeCompleter_rel hR (hR.keep herr huse) hcall
      exact hR.trans herr hcomp
    · next pkt' c₂ hdata =>
      rw [hdata] at hfill
      have hsent := hR.then_emit (e := .sendReq pkt' w.ssn)
        (hR.trans hfill (updateState_rel hR c₂ pkt' payload.toNat)) rfl rfl
      split at h
      · exact hR.trans hsent (reqComplete_rel hR (hR.keep hsent huse) h)
      · cases h
        exact hsent

theorem reqBuild_rel {opcode : Opcode} (huse : U c) (h : reqBuild c w opcode = some r) :
    R c r.2 := by
  have hdepth := checkDepth_rel hR c w opcode
  unfold reqBuild at h
  split at h
  · next c₁ hd =>
    rw [hd] at hdepth
    cases h
    exact hdepth
  · next c₁ hd =>
    rw [hd] at hdepth
    dsimp only at h
    generalize (if (rxeOpcodeMask opcode).writeOrSend = true then s32 w.dma.resid else 0) = payload
      at h
    split at h
    · split at h
      · have hfake := hR.trans hdepth (fakeUdSend_rel hR c₁)
        exact hR.trans hfake (reqComplete_rel hR (hR.keep hfake huse) h)
      · exact hR.trans hdepth (reqSend_rel hR (hR.keep hdepth huse) h)
    · exact hR.trans hdepth (reqSend_rel hR (hR.keep hdepth huse) h)

theorem reqNext_rel (huse : U c) (h : reqNext c = some r) : R c r.2 := by
  have hnext := reqNextWqe_rel hR c
  unfold reqNext at h
  split at h
  · next c₁ hw =>
    rw [hw] at hnext
    cases h
    exact hnext
  · next w c₁ hw =>
    rw [hw] at hnext
    split at h
    · cases h
      exact hR.trans hnext (hR.quiet rfl)
    · split at h
      · cases h
        exact hR.trans hnext (hR.quiet rfl)
      · split at h
        · cases h
          exact hR.trans hnext (setStatus_rel hR.calm c₁ _ _)
        · exact hR.trans hnext (reqBuild_rel hR (hR.keep hnext huse) h)

theorem rxeRequester_rel (huse : U c) (h : rxeRequester c = some r) : R c r.2 := by
  unfold rxeRequester at h
  split at h
  · cases h
    exact hR.refl c
  · split at h
    · cases h
      exact hR.quiet rfl
    · split at h
      · have hretry : R c { reqRetry c with qp.req.needRetry := false } :=
          hR.trans (reqRetry_rel hR c) (hR.quiet rfl)
        exact hR.trans hretry (reqNext_rel hR (hR.keep hretry huse) h)
      · exact reqNext_rel hR huse h

end Send

/-! ### A modify verb -/

/-- The context in which a modify verb changes the state: a resource ring, then the plain
attributes. -/
def ringAttrs (c : Ctx) (skb : List Bool) (n : ℕ) (rd : ℤ) (res : List RespRes) (head : ℕ)
    (a : ModifyAttr) : Ctx :=
  { c with skb
           qp := setAttrs c.par { c.qp with attr.maxRdAtomic := n, req.rdAtomic := rd,
                                            resp.resources := res, resp.resHead := head } a }

theorem rxeQpFromAttr_cases {a : ModifyAttr} (h : rxeQpFromAttr c a = some r) :
    ∃ skb n rd res head,
      r = (false, { c with skb, qp.resp.resources := [], qp.resp.resHead := 0 }) ∨
      r.1 = true ∧ setQpState (ringAttrs c skb n rd res head a) a.qpState = some r.2 := by
  unfold rxeQpFromAttr at h
  cases hmax : a.maxRdAtomic with
  | none =>
    rw [hmax] at h
    obtain ⟨c₁, hset, rfl⟩ := Option.map_eq_some_iff.1 h
    exact ⟨c.skb, c.qp.attr.maxRdAtomic, c.qp.req.rdAtomic, c.qp.resp.resources, c.qp.resp.resHead,
      Or.inr ⟨rfl, hset⟩⟩
  | some n =>
    rw [hmax] at h
    unfold setMaxRdAtomic at h
    obtain ⟨skb, hskb⟩ := takeSkb_eq c
    generalize c.takeSkb = t at hskb h
    obtain ⟨ok, c₁⟩ := t
    obtain rfl : c₁ = { c with skb } := hskb
    -- the resources are freed first, then allocated anew
    cases ok with
    | false =>
      cases h
      exact ⟨skb, 0, 0, [], 0, Or.inl rfl⟩
    | true =>
      obtain ⟨c₁, hset, rfl⟩ := Option.map_eq_some_iff.1 h
      exact ⟨skb, _, _, _, _, Or.inr ⟨rfl, hset⟩⟩

theorem setQpState_cases {c' : Ctx} {state : Option IbQpState} (h : setQpState c state = some c') :
    state = some .reset ∧ rxeQpReset c = some c' ∨
    state = some .err ∧ c' = rxeQpError c ∨
    state = some .sqd ∧ c.qp.req.state ≠ .drained ∧
      (c.qp.type = .rc ∧ c' = ({ c with qp.req.state := .drain }.emit .runComp).emit .runReq ∨
        c.qp.type ≠ .rc ∧ ∃ n c₁, completeAll n { c with qp.req.state := .drain } = some c₁ ∧
          c' = c₁.emit .runReq) ∨
    ∃ req resp, c' = { c with qp.req.state := req, qp.resp.state := resp } ∧
      (req = c.qp.req.state ∨
        (state = some .init ∨ state = some .rts) ∧ (req = .init ∨ req = .ready)) ∧
      (resp = c.qp.resp.state ∨ resp = .init ∨ resp = .ready) := by
  match state with
  | none | some .sqe =>
    cases h
    exact Or.inr (Or.inr (Or.inr ⟨_, _, rfl, Or.inl rfl, Or.inl rfl⟩))
  | some .reset => exact Or.inl ⟨rfl, h⟩
  | some .err => exact Or.inr (Or.inl ⟨rfl, (Option.some_inj.1 h).symm⟩)
  | some .init | some .rts =>
    cases h
    exact Or.inr (Or.inr (Or.inr ⟨_, _, rfl, Or.inr ⟨by simp, by simp⟩, by simp⟩))
  | some .rtr =>
    cases h
    exact Or.inr (Or.inr (Or.inr ⟨_, _, rfl, Or.inl rfl, by simp⟩))
  | some .sqd =>
    change rxeQpDrain c = some c' at h
    unfold rxeQpDrain at h
    split at h
    · cases h
      exact Or.inr (Or.inr (Or.inr ⟨_, _, rfl, Or.inl rfl, Or.inl rfl⟩))
    · next hne =>
      refine Or.inr (Or.inr (Or.inl ⟨rfl, hne, ?_⟩))
      dsimp only at h
      split at h
      · next hrc => exact Or.inl ⟨hrc, (Option.some_inj.1 h).symm⟩
      · next hrc =>
        obtain ⟨c₁, hall, rfl⟩ := Option.map_eq_some_iff.1 h
        exact Or.inr ⟨hrc, _, c₁, hall, rfl⟩

theorem setQpState_side {c' : Ctx} {state : Option IbQpState} (huse : c.inUse)
    (hstate : state ≠ some .reset) (h : setQpState c state = some c') : SendSide c c' := by
  have hdrain : SendSide c { c with qp.req.state := .drain } :=
    { SendSide.refl c with reqReset := fun h => (nomatch h) }
  rcases setQpState_cases h with ⟨hreset, -⟩ | ⟨-, rfl⟩ | ⟨-, -, ⟨-, rfl⟩ | ⟨-, n, c₁, hall, rfl⟩⟩ |
    ⟨req, resp, rfl, hreq, hresp⟩
  · exact absurd hreset hstate
  · exact rxeQpError_rel sideRel.coarse c
  · exact .then_emit (.then_emit hdrain rfl rfl) rfl rfl
  · exact .then_emit (hdrain.trans (completeAll_rel sideRel _ (hdrain.inUse huse) hall)) rfl rfl
  · refine { SendSide.refl c with reqReset := ?_, respReset := ?_ }
    · rintro rfl
      exact hreq.elim Eq.symm fun h => h.2.elim nofun nofun
    · rintro rfl
      exact hresp.elim Eq.symm fun h => h.elim nofun nofun

theorem rxeQpFromAttr_side {a : ModifyAttr} (huse : c.inUse)
    (hstate : a.qpState ≠ some .reset) (h : rxeQpFromAttr c a = some r) : SendSide c r.2 := by
  obtain ⟨skb, n, rd, res, head, rfl | ⟨-, hset⟩⟩ := rxeQpFromAttr_cases h
  · exact .of_view rfl
  · have hattr : SendSide c (ringAttrs c skb n rd res head a) := .of_view rfl
    exact hattr.trans (setQpState_side (hattr.inUse huse) hstate hset)

end Rxe
