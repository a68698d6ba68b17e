/-
Failed work requests.

`COMPST_ERROR` retires the oldest WQE as failed, and the completer of a QP in the error state
retires every WQE with a flush error.  `do_complete` reports the status it finds in the WQE, if
the WQE is signaled and the CQ has room.

* `Marked` — a WQE the requester has marked as failed has the status of an error, in every run;
* `compStep_error` — the ways into `COMPST_ERROR`: with a status, or without one;
* `failed_wqe_reported` — exactly which failed WQEs are reported as failed;
* `failed_wqe_success` — a response of the wrong kind is reported as a success.
-/
import Rxe.SendShape

namespace Rxe

variable {r : Bool × Ctx} {s : CompCfg} {w : SendWqe}

/-! ### WQEs marked as failed -/

/-- If the WQE is marked as failed, its status says so. -/
def SendWqe.marked (w : SendWqe) : Prop := w.state = .error → w.status ≠ .success

/-- Every slot of the ring. -/
def Marked (q : RingBuf SendWqe) : Prop := ∀ w ∈ q.live ++ q.free, w.marked

namespace Marked

variable {q : RingBuf SendWqe}

theorem modify (h : Marked q) (i : ℕ) {f : SendWqe → SendWqe} (hf : ∀ w, w.marked → (f w).marked) :
    Marked (q.modify i f) := by
  intro w hw
  rcases List.mem_append.1 hw with hlive | hfree
  · rcases RingBuf.mem_live_modify hlive with hold | ⟨w', hmem, -, rfl⟩
    · exact h w (List.mem_append_left _ hold)
    · exact hf w' (h w' (List.mem_append_left _ hmem))
  · rcases RingBuf.mem_free_modify hfree with hold | ⟨w', hmem, -, rfl⟩
    · exact h w (List.mem_append_right _ hold)
    · exact hf w' (h w' (List.mem_append_right _ hmem))

theorem pop (h : Marked q) : Marked q.pop := by
  cases hlive : q.live with
  | nil =>
    unfold RingBuf.pop
    rw [hlive]
    exact h
  | cons w ws =>
    rw [RingBuf.pop_live hlive]
    intro w' hw'
    refine h w' ?_
    rw [hlive]
    rcases List.mem_append.1 hw' with hmem | hmem
    · exact List.mem_append_left _ (List.mem_cons_of_mem _ hmem)
    · rcases List.mem_append.1 hmem with hmem | hmem
      · exact List.mem_append_right _ hmem
      · rw [List.mem_singleton.1 hmem]
        exact List.mem_append_left _ List.mem_cons_self

theorem push (h : Marked q) {f : SendWqe → SendWqe} (hf : ∀ w, (f w).marked) :
    Marked (q.push f) := by
  cases hfree : q.free with
  | nil =>
    unfold RingBuf.push
    rw [hfree]
    exact h
  | cons w ws =>
    rw [RingBuf.push_live f hfree]
    intro w' hw'
    rcases List.mem_append.1 hw' with hmem | hmem
    · rcases List.mem_append.1 hmem with hmem | hmem
      · exact h w' (List.mem_append_left _ hmem)
      · rw [List.mem_singleton.1 hmem]
        exact hf w
    · exact h w' (List.mem_append_right _ (by rw [hfree]; exact List.mem_cons_of_mem _ hmem))

end Marked

theorem SendWqe.marked_of_state (h : w.state ≠ .error) : w.marked :=
  fun herr => absurd herr h

theorem retryLoop_marked (type : QpType) (mtu npsn : ℕ) (ws : List SendWqe)
    (hws : ∀ w ∈ ws, w.marked) :
    ∀ first op, ∀ w ∈ (retryLoop type mtu npsn first op ws).2, w.marked := by
  induction ws with
  | nil => exact fun _ _ w hw => absurd hw List.not_mem_nil
  | cons v vs ih =>
    intro first op w hw
    have hrest := ih fun w hw => hws w (List.mem_cons_of_mem _ hw)
    unfold retryLoop at hw
    split at hw
    · exact hws w hw
    · rcases List.mem_cons.1 hw with rfl | hw
      · exact hws _ List.mem_cons_self
      · exact hrest _ _ w hw
    · rcases List.mem_cons.1 hw with rfl | hw
      · exact SendWqe.marked_of_state nofun
      · exact hrest _ _ w hw

/-! ### Every step keeps the marks -/

section Steps

variable {c c' : Ctx} {w : SendWqe} {opcode : Opcode}

theorem doComplete_marked (h : Marked c.qp.sq) : Marked (doComplete c).qp.sq := by
  unfold doComplete
  split
  · exact h
  · next w _ =>
    have hpop : Marked (advanceSq (postSendCqe c w)).qp.sq := by
      unfold advanceSq
      rw [postSendCqe_qp]
      exact h.pop
    unfold wakeWaitFence
    split <;> exact hpop

theorem flushSq_marked (n : ℕ) : ∀ {c : Ctx}, Marked c.qp.sq → Marked (flushSq n c).qp.sq := by
  induction n with
  | zero => exact fun h => h
  | succ n ih =>
    intro c h
    exact ih (doComplete_marked (c := setStatus c 0 .wrFlushErr) (h.modify 0 fun _ _ _ => nofun))

theorem dropSq_marked (n : ℕ) : ∀ {c : Ctx}, Marked c.qp.sq → Marked (dropSq n c).qp.sq := by
  induction n with
  | zero => exact fun h => h
  | succ n ih => exact fun h => ih h.pop

theorem rxeQpError_marked (h : Marked c.qp.sq) : Marked (rxeQpError c).qp.sq := by
  unfold rxeQpError
  dsimp only
  split
  · exact h
  · exact flushSq_marked _ h

theorem wakeWaitPsn_sq (c : Ctx) : (wakeWaitPsn c).qp.sq = c.qp.sq := by
  unfold wakeWaitPsn
  split <;> rfl

theorem releaseRdAtomic_marked (h : Marked c.qp.sq) (w : SendWqe) :
    Marked (releaseRdAtomic c w).qp.sq := by
  unfold releaseRdAtomic
  split
  · have hset : Marked (c.setWqe 0 fun w => { w with hasRdAtomic := false }).qp.sq :=
      h.modify 0 fun _ hw => hw
    dsimp only
    split <;> exact hset
  · exact h

theorem copyResponse_marked (h : Marked c.qp.sq) (pkt : Pkt) (w : SendWqe) (data : List UInt8)
    (next : DmaInfo → CompState) : Marked (copyResponse c pkt w data next).2.qp.sq := by
  obtain ⟨dma, dev, heq | heq⟩ := copyResponse_outcome c pkt w data next
  · rw [heq]
    exact h.modify 0 fun _ hw => hw
  · rw [heq]
    exact h.modify 0 fun _ hw => hw

theorem markedRule : CompRule (fun _ _ c => Marked c.qp.sq) (fun c => Marked c.qp.sq) where
  noAck _ _ h _ := h
  takeAck _ _ _ _ h _ := h
  getWqe _ _ h := h
  checkPsn p w c _ h := by
    have hout := compCheckPsn_outcome c p w
    generalize compCheckPsn c p w = r at hout
    cases hout <;> exact h
  checkAck p w c _ h := by
    have hout := checkAck_outcome c p w
    generalize checkAck c p w = r at hout
    cases hout with
    | unfit | read | atomic | ack | rnr | seq => exact h
    | seqPast =>
      rw [wakeWaitPsn_sq]
      exact h
    -- a NAK writes its status before the WQE is completed
    | nak status hstatus => exact h.modify 0 fun _ _ _ => hstatus
  read p w c _ h := copyResponse_marked h p w _ _
  atomic p w c _ h := by
    unfold doAtomic
    generalize u64Bytes p.atmack = data
    exact copyResponse_marked h p w data _
  writeSend _ _ _ _ h := h
  compAck p w c _ h := by
    refine doComplete_marked ?_
    unfold completeDrain
    split <;> exact releaseRdAtomic_marked h w
  compWqe pkt c h := by
    refine doComplete_marked ?_
    split
    · exact h
    · rw [wakeWaitPsn_advance_sq]
      exact h
  updateComp p c h := by
    unfold updateComp
    rw [wakeWaitPsn_advance_sq]
    exact h
  done _ _ h := h
  timedOut _ _ _ _ _ h := h
  exit _ c h := by
    unfold compExit
    split <;> exact h
  retry _ c _ _ _ _ h := by
    unfold compErrorRetry
    dsimp only
    split <;> exact h
  retryExc _ _ _ _ _ _ h := h.modify 0 fun _ _ _ => nofun
  rnrRetry _ _ _ _ _ h := h
  rnrExc _ _ _ _ _ h := h.modify 0 fun _ _ _ => nofun
  error _ _ h := rxeQpError_marked (doComplete_marked h)
  leave _ _ _ _ h := h

theorem rxeCompleter_marked (h : Marked c.qp.sq) (hcall : rxeCompleter c = some r) :
    Marked r.2.qp.sq := by
  rcases rxeCompleter_cases hcall with ⟨-, rfl⟩ | ⟨-, rfl⟩ | ⟨-, -, rfl⟩ | ⟨-, -, -, -, hrun⟩
  · exact dropSq_marked _ h
  · exact flushSq_marked _ h
  · exact h
  · exact markedRule.run (s := ⟨.getAck, none, compEnter c⟩) h hrun

theorem completeAll_marked (n : ℕ) :
    ∀ {c c' : Ctx}, Marked c.qp.sq → completeAll n c = some c' → Marked c'.qp.sq := by
  induction n with
  | zero =>
    intro c c' _ hall
    cases hall
  | succ n ih =>
    intro c c' h hall
    unfold completeAll at hall
    split at hall
    · cases hall
    · next c₁ hcall => exact ih (rxeCompleter_marked h hcall) hall
    · next c₁ hcall =>
      cases hall
      exact rxeCompleter_marked h hcall

theorem reqComplete_marked (h : Marked c.qp.sq) (hcall : reqComplete c = some r) :
    Marked r.2.qp.sq := by
  unfold reqComplete at hcall
  split at hcall
  · cases hcall
    exact h
  · obtain ⟨c₁, hall, rfl⟩ := Option.map_eq_some_iff.1 hcall
    exact completeAll_marked _ h hall

theorem updateState_marked (h : Marked c.qp.sq) (pkt : Pkt) (payload : ℕ) :
    Marked (updateState c pkt payload).qp.sq := by
  unfold updateState
  dsimp only
  split
  · exact h
  · next w _ =>
    rw [armRetransTimer_qp]
    refine h.modify _ fun _ _ => SendWqe.marked_of_state ?_
    unfold updateWqe
    dsimp only
    split
    · split <;> nofun
    · nofun

theorem reqSend_marked {payload : ℤ} (h : Marked c.qp.sq)
    (hcall : reqSend c w opcode payload = some r) : Marked r.2.qp.sq := by
  unfold reqSend at hcall
  rcases initReqPacket_outcome c w opcode payload with
    ⟨skb, hinit⟩ | ⟨pkt, skb, noack, out, -, -, -, hinit⟩
  · rw [hinit] at hcall
    cases hcall
    exact h
  · rw [hinit] at hcall
    dsimp only at hcall
    have hload := (fillPacket_outcome
      { c with skb, qp.req.noackPkts := noack, qp.reqSkbOut := out } w pkt payload.toNat).1
    have hdata : Marked (fillPacket { c with
        skb, qp.req.noackPkts := noack, qp.reqSkbOut := out } w pkt payload.toNat).2.qp.sq := by
      generalize fillPacket _ w pkt payload.toNat = f at hload
      obtain ⟨pkt', c₂⟩ := f
      cases hload with
      | none => exact h
      | data => exact h.modify _ fun _ hw => hw
    split at hcall
    · next c₂ hfill =>
      rw [hfill] at hdata
      obtain ⟨r', hcomp, rfl⟩ := Option.map_eq_some_iff.1 hcall
      -- the WQE gets a status together with the state ERROR
      have hfailed : Marked (c₂.setWqe c₂.qp.req.wqeIndex fun w =>
          { w with status := .locProtErr, state := .error }).qp.sq :=
        hdata.modify _ fun _ _ _ => nofun
      have hcompleted := rxeCompleter_marked hfailed hcomp
      exact hcompleted
    · next pkt' c₂ hfill =>
      rw [hfill] at hdata
      have hsent := updateState_marked hdata pkt' payload.toNat
      split at hcall
      · exact reqComplete_marked (c := (updateState c₂ pkt' payload.toNat).emit
          (.sendReq pkt' w.ssn)) hsent hcall
      · cases hcall
        exact hsent

theorem reqBuild_marked (h : Marked c.qp.sq)
    (hcall : reqBuild c w opcode = some r) : Marked r.2.qp.sq := by
  have hdepth : Marked (checkDepth c w opcode).2.qp.sq := by
    rcases checkDepth_credited c w opcode with ⟨-, hcredit⟩ | ⟨-, -, -, heq⟩
    · generalize checkDepth c w opcode = d at hcredit
      obtain ⟨ok, c₁⟩ := d
      cases hcredit with
      | free | held => exact h
      | taken => exact h.modify _ fun _ hw => hw
    · rw [heq]
      exact h
  unfold reqBuild at hcall
  split at hcall
  · next c₁ hd =>
    rw [hd] at hdepth
    cases hcall
    exact hdepth
  · next c₁ hd =>
    rw [hd] at hdepth
    dsimp only at hcall
    generalize (if (rxeOpcodeMask opcode).writeOrSend then s32 w.dma.resid else 0) = payload
      at hcall
    split at hcall
    · split at hcall
      -- a UD send that is too long is completed as if it had been sent
      · refine reqComplete_marked (c := fakeUdSend c₁) ?_ hcall
        exact hdepth.modify _ fun _ _ => SendWqe.marked_of_state nofun
      · exact reqSend_marked hdepth hcall
    · exact reqSend_marked hdepth hcall

theorem reqNext_marked (h : Marked c.qp.sq) (hcall : reqNext c = some r) :
    Marked r.2.qp.sq := by
  have hdrain : Marked (reqDrain c).qp.sq := by
    unfold reqDrain
    split <;> exact h
  have hnext : Marked (reqNextWqe c).2.qp.sq := by
    rcases reqNextWqe_outcome c with ⟨-, -, heq⟩ | ⟨w, -, -, heq⟩ | ⟨w, -, heq⟩
    · rw [heq]
      exact hdrain
    · rw [heq]
      exact hdrain
    · rw [heq]
      exact hdrain.modify _ fun _ hw => hw
  unfold reqNext at hcall
  split at hcall
  · next c₁ hw =>
    rw [hw] at hnext
    cases hcall
    exact hnext
  · next w c₁ hw =>
    rw [hw] at hnext
    split at hcall
    · cases hcall
      exact hnext
    · split at hcall
      · cases hcall
        exact hnext
      · split at hcall
        · cases hcall
          exact hnext.modify _ fun _ _ _ => nofun
        · exact reqBuild_marked hnext hcall

theorem rxeRequester_marked (h : Marked c.qp.sq) (hcall : rxeRequester c = some r) :
    Marked r.2.qp.sq := by
  unfold rxeRequester at hcall
  split at hcall
  · cases hcall
    exact h
  · split at hcall
    · cases hcall
      exact h
    · split at hcall
      · refine reqNext_marked (c := { reqRetry c with qp.req.needRetry := false }) ?_ hcall
        unfold reqRetry
        split
        · exact h
        · intro w hw
          rcases List.mem_append.1 hw with hlive | hfree
          · exact retryLoop_marked _ _ _ _ (fun w hw => h w (List.mem_append_left _ hw)) _ _ w hlive
          · exact h w (List.mem_append_right _ hfree)
      · exact reqNext_marked h hcall

theorem setQpState_marked {state : Option IbQpState} (h : Marked c.qp.sq)
    (hset : setQpState c state = some c') : Marked c'.qp.sq := by
  rcases setQpState_cases hset with
    ⟨-, hreset⟩ | ⟨-, rfl⟩ | ⟨-, -, ⟨-, rfl⟩ | ⟨-, n, c₁, hall, rfl⟩⟩ |
    ⟨req, resp, rfl, -⟩
  · obtain ⟨req, resp, sq, rq, pkts, rfl, -, -, c₁, n, hsq, rfl⟩ := rxeQpReset_frame hreset
    exact dropSq_marked n (hsq ▸ h)
  · exact rxeQpError_marked h
  · exact h
  · have hcompleted := completeAll_marked (c := { c with qp.req.state := .drain }) n h hall
    exact hcompleted
  · exact h

theorem sendAct_marked {a : SendAct} (h : Marked c.qp.sq) (hact : sendAct c a = some c') :
    Marked c'.qp.sq := by
  cases a with
  | post wrs =>
    cases hact
    exact rxePostSend_inv (P := fun c => Marked c.qp.sq)
      (fun _ _ _ h => h.push fun _ => SendWqe.marked_of_state nofun) (fun _ h => h) h wrs
  | requester =>
    obtain ⟨r, hcall, rfl⟩ := Option.map_eq_some_iff.1 hact
    exact rxeRequester_marked h hcall
  | completer =>
    obtain ⟨r, hcall, rfl⟩ := Option.map_eq_some_iff.1 hact
    exact rxeCompleter_marked h hcall
  | recv pkt =>
    cases hact
    exact h
  | timer =>
    cases hact
    unfold retransmitTimer
    split <;> exact h
  | error =>
    cases hact
    exact rxeQpError_marked h
  | modify a =>
    obtain ⟨r, hcall, rfl⟩ := Option.map_eq_some_iff.1 hact
    obtain ⟨skb, n, rd, res, head, rfl | ⟨-, hset⟩⟩ := rxeQpFromAttr_cases hcall
    · exact h
    · exact setQpState_marked (c := ringAttrs c skb n rd res head a) h hset
  | env dev skb cq =>
    cases hact
    exact h

end Steps

/-! ### A report -/

/-- A completion of the WQE is asked for. -/
def Ctx.signals (c : Ctx) (w : SendWqe) : Prop := c.qp.sqSigAll ∨ w.ibwr.sendFlags.signaled

/-- `do_complete` of the oldest WQE posts one CQE, with the status of an error. -/
def Ctx.reportsFailure (c : Ctx) : Prop :=
  ∃ w, c.sqHead = some w ∧ sendCqes (doComplete c).out = sendCqes c.out ++ [(makeSendCqe w, w)] ∧
    (makeSendCqe w).status ≠ .success

section Report

variable {c : Ctx} {w : SendWqe}

theorem sendCqes_emit (c : Ctx) (e : Event) :
    sendCqes (c.emit e).out = sendCqes c.out ++ (Event.sendCqe? e).toList := by
  unfold sendCqes Ctx.emit
  cases h : e.sendCqe? <;> simp [h]

theorem doComplete_sendCqes (hw : c.sqHead = some w) :
    sendCqes (doComplete c).out = sendCqes (postSendCqe c w).out := by
  unfold doComplete
  rw [hw]
  unfold wakeWaitFence
  dsimp only
  split
  · exact (sendCqes_emit _ _).trans (List.append_nil _)
  · rfl

theorem reportsFailure_iff (hw : c.sqHead = some w) :
    c.reportsFailure ↔ c.signals w ∧ c.cqRoom ∧ w.status ≠ .success := by
  have hone : c.reportsFailure ↔
      sendCqes (postSendCqe c w).out = sendCqes c.out ++ [(makeSendCqe w, w)] ∧
        w.status ≠ .success := by
    rw [← doComplete_sendCqes hw]
    refine ⟨?_, fun h => ⟨w, hw, h⟩⟩
    rintro ⟨w', hw', h⟩
    cases hw.symm.trans hw'
    exact h
  rw [hone]
  unfold postSendCqe Ctx.signals Ctx.cqRoom
  by_cases hsig : (c.qp.sqSigAll || w.ibwr.sendFlags.signaled) = true
  · have hsig' : c.qp.sqSigAll = true ∨ w.ibwr.sendFlags.signaled = true := by
      simpa using hsig
    rw [if_pos hsig]
    unfold Ctx.cqPost
    split
    · next hcq => simp [sendCqes_emit, Event.sendCqe?, hcq, hsig']
    · next hcq => simp [sendCqes_emit, Event.sendCqe?, hcq, hsig']
    · next hcq => simp [sendCqes_emit, Event.sendCqe?, hcq]
  · have hsig' : ¬ (c.qp.sqSigAll = true ∨ w.ibwr.sendFlags.signaled = true) := by
      simpa using hsig
    simp [hsig']

end Report

/-! ### Into the error state -/

/-- The data of a response cannot be stored. -/
def copyFails (c : Ctx) (w : SendWqe) (data : List UInt8) : Prop :=
  ∃ dma dev e, copyDataIn c.dev c.qp.pd (some .localWrite) w.dma data = (dma, dev, .error e)

/-- The pass into `COMPST_ERROR` writes no status. -/
def Unmarked (s : CompCfg) (w : SendWqe) : Prop :=
  ∃ pkt, s.pkt = some pkt ∧
    (s.state = .checkAck ∧ unfit s.c pkt w ∨ s.state = .read ∧ copyFails s.c w pkt.payload ∨
      s.state = .atomic ∧ copyFails s.c w (u64Bytes pkt.atmack))

section Entry

variable {c : Ctx} {pkt : Pkt} {w : SendWqe}

theorem copyResponse_error {s' : CompCfg} (data : List UInt8) {next : DmaInfo → CompState}
    (hnext : ∀ dma, next dma ≠ .error) (hstep : s.goto (copyResponse s.c pkt w data next) = .inl s')
    (hs' : s'.state = .error) :
    copyFails s.c w data ∧
      ∃ dma dev, s'.c = { s.c with dev }.setWqe 0 fun w => { w with dma } := by
  unfold copyResponse CompCfg.goto at hstep
  split at hstep
  · next dma dev e heq =>
    cases hstep
    exact ⟨⟨dma, dev, e, heq⟩, dma, dev, rfl⟩
  · next dma dev heq =>
    cases hstep
    exact absurd hs' (hnext dma)

end Entry

/-- The ways into `COMPST_ERROR`, with what it finds. -/
inductive FailEntry (s : CompCfg) (w : SendWqe) : Ctx → Prop
  | marked (hw : w.state = .error) (h : ¬ Unmarked s w) : FailEntry s w s.c
  | status (status : WcStatus) (hstatus : status ≠ .success) (h : ¬ Unmarked s w) :
      FailEntry s w (setStatus s.c 0 status)
  | unfit (h : Unmarked s w) : FailEntry s w s.c
  | copy (dma : DmaInfo) (dev : Dev) (h : Unmarked s w) :
      FailEntry s w ({ s.c with dev }.setWqe 0 fun w => { w with dma })

theorem Unmarked.state (h : Unmarked s w) :
    s.state = .checkAck ∨ s.state = .read ∨ s.state = .atomic := by
  obtain ⟨pkt, -, ⟨hs, -⟩ | ⟨hs, -⟩ | ⟨hs, -⟩⟩ := h
  · exact Or.inl hs
  · exact Or.inr (Or.inl hs)
  · exact Or.inr (Or.inr hs)

/-- A pass of the completer into `COMPST_ERROR`. -/
theorem compStep_error {s' : CompCfg} (hstep : compStep s = .inl s') (hs' : s'.state = .error) :
    ∃ w, s.c.sqHead = some w ∧ FailEntry s w s'.c := by
  obtain ⟨state, pkt, c⟩ := s
  cases state with
  | getAck =>
    unfold compStep at hstep
    dsimp only at hstep
    split at hstep
    · cases hstep
      cases hs'
    · cases hstep
      cases hs'
  | getWqe =>
    cases hstep
    have hout := getWqe_outcome c pkt
    rw [show getWqe c pkt = .error from hs'] at hout
    cases hout with
    | @failed w hw hstate =>
      refine ⟨w, hw, .marked hstate fun h => ?_⟩
      rcases h.state with h | h | h <;> cases h
  | checkPsn =>
    obtain ⟨p, w, hp, hw, hf⟩ := withPktWqe_inl hstep
    cases hf
    have hout := compCheckPsn_outcome c p w
    generalize compCheckPsn c p w = r at hout hs'
    cases hout <;> cases hs'
  | checkAck =>
    obtain ⟨p, w, hp, hw, hf⟩ := withPktWqe_inl hstep
    cases hf
    have hout := checkAck_outcome c p w
    generalize checkAck c p w = r at hout hs'
    cases hout with
    -- of the answers to `check_ack` only this one leaves the status as it was
    | unfit h => exact ⟨w, hw, .unfit ⟨p, hp, Or.inl ⟨rfl, h⟩⟩⟩
    | nak status hstatus hfit =>
      refine ⟨w, hw, .status status hstatus ?_⟩
      rintro ⟨p', hp', ⟨-, h⟩ | ⟨h, -⟩ | ⟨h, -⟩⟩
      · cases hp.symm.trans hp'
        exact hfit h
      · cases h
      · cases h
    | read | atomic | ack | rnr | seq | seqPast => cases hs'
  | read =>
    obtain ⟨p, w, hp, hw, hf⟩ := withPktWqe_inl hstep
    obtain ⟨hfails, dma, dev, heq⟩ :=
      copyResponse_error p.payload (fun dma => by split <;> nofun) hf hs'
    rw [heq]
    exact ⟨w, hw, .copy dma dev ⟨p, hp, Or.inr (Or.inl ⟨rfl, hfails⟩)⟩⟩
  | atomic =>
    obtain ⟨p, w, hp, hw, hf⟩ := withPktWqe_inl hstep
    unfold doAtomic at hf
    generalize hdata : u64Bytes p.atmack = data at hf
    obtain ⟨hfails, dma, dev, heq⟩ :=
      copyResponse_error data (fun _ => CompState.noConfusion) hf hs'
    rw [heq]
    exact ⟨w, hw, .copy dma dev ⟨p, hp, Or.inr (Or.inr ⟨rfl, hdata ▸ hfails⟩)⟩⟩
  | writeSend =>
    obtain ⟨p, w, hp, hw, hf⟩ := withPktWqe_inl hstep
    cases hf
    split at hs' <;> cases hs'
  | compAck =>
    obtain ⟨p, w, hp, hw, hf⟩ := withPktWqe_inl hstep
    cases hf
    rcases completeAck_state c p w with h | h
    · exact absurd (h.symm.trans hs') nofun
    · exact absurd (h.symm.trans hs') nofun
  | compWqe =>
    cases hstep
    cases hs'
  | updateComp =>
    cases pkt with
    | none => cases hstep
    | some p =>
      cases hstep
      cases hs'
  | done => cases hstep
  | exit =>
    unfold compStep at hstep
    dsimp only at hstep
    split at hstep
    · cases hstep
      cases hs'
    · cases hstep
  | errorRetry =>
    obtain ⟨w, hw, rfl⟩ := errorRetry_inl hstep
    refine ⟨w, hw, .status _ nofun fun h => ?_⟩
    rcases h.state with h | h | h <;> cases h
  | rnrRetry =>
    obtain ⟨w, hw, rfl⟩ := rnrRetry_inl hstep
    refine ⟨w, hw, .status _ nofun fun h => ?_⟩
    rcases h.state with h | h | h <;> cases h
  | error => cases hstep

theorem FailEntry.reports_iff {c : Ctx} (h : FailEntry s w c)
    (hw : s.c.sqHead = some w) (hmarked : w.marked) :
    c.reportsFailure ↔
      s.c.signals w ∧ s.c.cqRoom ∧ (Unmarked s w → w.status ≠ .success) := by
  cases h with
  | marked hstate h =>
    rw [reportsFailure_iff hw]
    simp [h, hmarked hstate]
  -- the write decides the status, whatever it was before
  | status status hstatus h =>
    have hhead : (setStatus s.c 0 status).sqHead = some { w with status } := by
      rw [setStatus, Ctx.sqHead_setWqe, hw]
      rfl
    rw [reportsFailure_iff hhead]
    have hsignals : (setStatus s.c 0 status).signals { w with status } ↔ s.c.signals w := Iff.rfl
    have hroom : (setStatus s.c 0 status).cqRoom ↔ s.c.cqRoom := Iff.rfl
    rw [hsignals, hroom]
    simp [h, hstatus]
  | unfit h =>
    rw [reportsFailure_iff hw]
    simp [h]
  | copy dma dev h =>
    have hhead : ({ s.c with dev }.setWqe 0 fun w => { w with dma }).sqHead =
        some { w with dma } := by
      rw [Ctx.sqHead_setWqe]
      exact congrArg (Option.map _) hw
    rw [reportsFailure_iff hhead]
    have hsignals : ({ s.c with dev }.setWqe 0 fun w => { w with dma }).signals { w with dma } ↔
      s.c.signals w := Iff.rfl
    have hroom : ({ s.c with dev }.setWqe 0 fun w => { w with dma }).cqRoom ↔ s.c.cqRoom := Iff.rfl
    rw [hsignals, hroom]
    simp [h]

/-! ### The flush -/

theorem flushSq_live (n : ℕ) :
    ∀ c : Ctx, (flushSq n c).qp.sq.live = c.qp.sq.live.drop n := by
  -- one round completes the head, if there is one
  induction n with
  | zero => exact fun _ => rfl
  | succ n ih =>
    intro c
    refine (ih _).trans ?_
    cases hlive : c.qp.sq.live with
    | nil =>
      have hnone : (setStatus c 0 .wrFlushErr).sqHead = none := by
        rw [setStatus, Ctx.sqHead_setWqe, Ctx.sqHead, hlive]
        rfl
      have hsame : (doComplete (setStatus c 0 .wrFlushErr)).qp.sq.live = [] := by
        unfold doComplete
        rw [hnone]
        exact List.head?_eq_none_iff.1 hnone
      rw [hsame, List.drop_nil, List.drop_nil]
    | cons w ws =>
      have hhead : (setStatus c 0 .wrFlushErr).sqHead = some { w with status := .wrFlushErr } := by
        rw [setStatus, Ctx.sqHead_setWqe, Ctx.sqHead, hlive]
        rfl
      have hrest : (setStatus c 0 .wrFlushErr).qp.sq.live =
          { w with status := .wrFlushErr } :: ws := by
        have hlt : 0 < c.qp.sq.live.length := by
          rw [hlive]
          exact Nat.succ_pos _
        unfold setStatus Ctx.setWqe
        rw [RingBuf.modify_of_lt _ hlt, hlive]
        rfl
      rw [(doComplete_pop hhead).1, RingBuf.pop_live hrest]
      rfl

theorem flushSq_reports_iff (c : Ctx) (n : ℕ) (hw : c.qp.sq.live[n]? = some w) :
    (setStatus (flushSq n c) 0 .wrFlushErr).reportsFailure ↔ c.signals w ∧
      (flushSq n c).cqRoom := by
  have hhead : (setStatus (flushSq n c) 0 .wrFlushErr).sqHead =
      some { w with status := .wrFlushErr } := by
    rw [setStatus, Ctx.sqHead_setWqe, Ctx.sqHead, flushSq_live, List.head?_drop, hw]
    rfl
  have hsig : (flushSq n c).qp.sqSigAll = c.qp.sqSigAll :=
    congrArg (fun f => f.2.2.2.1) (flushSq_rel fixedRel.calm n c)
  have hsignals : (setStatus (flushSq n c) 0 .wrFlushErr).signals { w with status := .wrFlushErr } ↔
      c.signals w := by
    unfold Ctx.signals
    rw [← hsig]
    rfl
  have hroom : (setStatus (flushSq n c) 0 .wrFlushErr).cqRoom ↔ (flushSq n c).cqRoom := Iff.rfl
  rw [reportsFailure_iff hhead, hsignals, hroom]
  simp

/-! ### Runs -/

/-- A pass of a call of the completer. -/
inductive CompReach (c : Ctx) : CompCfg → Prop
  | enter : CompReach c ⟨.getAck, none, compEnter c⟩
  | pass {s s' : CompCfg} (h : CompReach c s) (hstep : compStep s = .inl s') : CompReach c s'

theorem CompReach.marked {c : Ctx} (h : CompReach c s) (hc : Marked c.qp.sq) :
    Marked s.c.qp.sq := by
  induction h with
  | enter => exact hc
  | @pass s s' _ hstep ih =>
    have hafter := markedRule.step (s := s) ih
    rw [hstep] at hafter
    exact hafter

open Trace in
/-- In every run of a QP none of whose WQEs has failed yet, every WQE marked as failed has the
status of an error.  Where that holds and the completer is called, a WQE that `COMPST_ERROR`
retires is reported with one CQE and the status of an error exactly if it is signaled, the CQ has
room, and the pass into `COMPST_ERROR` wrote a status or the slot had one; a WQE that the flush
loop retires exactly if it is signaled and the CQ has room. -/
theorem failed_wqe_reported (c₀ c : Ctx)
    (h₀ : ∀ w ∈ c₀.qp.sq.live ++ c₀.qp.sq.free, w.state ≠ .error)
    (hreach : Reach sendAct (fun _ _ => True) c₀ c) :
    Marked c.qp.sq ∧
      (∀ d s s', Marked d.qp.sq → CompReach d s → compStep s = .inl s' → s'.state = .error →
        ∃ w, s.c.sqHead = some w ∧ (s'.c.reportsFailure ↔
          s.c.signals w ∧ s.c.cqRoom ∧ (Unmarked s w → w.status ≠ .success))) ∧
      ∀ (d : Ctx) (n : ℕ) (w : SendWqe), d.qp.sq.live[n]? = some w →
        ((setStatus (flushSq n d) 0 .wrFlushErr).reportsFailure ↔
          d.signals w ∧ (flushSq n d).cqRoom) := by
  refine ⟨?_, fun d s s' hd hs hstep hs' => ?_, fun d n w hw => flushSq_reports_iff d n hw⟩
  · exact Reach.inv (I := fun c => Marked c.qp.sq) (fun w hw => SendWqe.marked_of_state (h₀ w hw))
      (fun _ _ _ h _ hact => sendAct_marked h hact) hreach
  · obtain ⟨w, hw, hentry⟩ := compStep_error hstep hs'
    have hmarked := hs.marked hd w (List.mem_append_left _ (List.mem_of_head? hw))
    exact ⟨w, hw, hentry.reports_iff hw hmarked⟩

/-- An RC QP with no retry left. -/
def failQp : Ctx :=
  { qp := { type := .rc, sq := ⟨[], List.replicate 4 { ibwr := orderWr }⟩, rq := ⟨[], [{}]⟩,
            req := { state := .ready } } }

open Trace in
/-- A signaled send for which no retry is left is reported as failed. -/
theorem failed_wqe_reported_retry :
    ∃ c s s', Reach sendAct (fun _ _ => True) failQp c ∧ CompReach c s ∧ compStep s = .inl s' ∧
      s'.state = .error ∧ s'.c.reportsFailure := by
  have hrun : ∃ c s s', Reach sendAct (fun _ _ => True) failQp c ∧ CompReach c s ∧
      compStep s = .inl s' ∧ s'.state = .error ∧ s.state = .errorRetry ∧ s.c.cq = [] ∧
      ∀ w, s.c.sqHead = some w → w.ibwr = orderWr :=
    ⟨_, _, _, .next (.next (.next .start
      (a := .post [orderWr]) trivial rfl)
      (a := .requester) trivial rfl)
      (a := .timer) trivial rfl,
      .pass (.pass (.pass .enter rfl) rfl) rfl, rfl, rfl, rfl, rfl, by rintro w ⟨⟩; rfl⟩
  obtain ⟨c, s, s', hreach, hs, hstep, hs', hstate, hcq, hwr⟩ := hrun
  have hreported := failed_wqe_reported failQp c (by decide) hreach
  obtain ⟨w, hw, hiff⟩ := hreported.2.1 c s s' hreported.1 hs hstep hs'
  refine ⟨c, s, s', hreach, hs, hstep, hs', hiff.2 ⟨Or.inr ?_, ?_, fun h => ?_⟩⟩
  · rw [hwr w hw]
    rfl
  · unfold Ctx.cqRoom
    rw [hcq]
    nofun
  · rw [Unmarked] at h
    obtain ⟨pkt, -, ⟨h, -⟩ | ⟨h, -⟩ | ⟨h, -⟩⟩ := h <;> rw [hstate] at h <;> cases h

/-- A response to a read. -/
def strayResponse : Pkt := { opcode := .rcRdmaReadResponseOnly, aeth := ⟨aethAckUnlimited, 1⟩ }

open Trace in
/-- A read response for a send: the QP goes to the error state, and the send is reported as
successful. -/
theorem failed_wqe_success :
    ∃ c c', Reach sendAct (fun _ _ => True) failQp c ∧ sendAct c .completer = some c' ∧
      c'.qp.req.state = .error ∧ c'.qp.sq.live = [] ∧
      (sendCqes c'.out).map (fun p => p.1.status) = [.success] :=
  ⟨_, _, .next (.next (.next .start
    (a := .post [orderWr]) trivial rfl)
    (a := .requester) trivial rfl)
    (a := .recv strayResponse) trivial rfl, rfl, rfl, rfl, rfl⟩

end Rxe
