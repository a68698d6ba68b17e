/-
The send side call by call.

What can be said about every run of the requester and the completer is said once here:

* `CompRule` — what has to be shown of an invariant of the loop of `rxe_completer`, one
  obligation for each of its states;
* `rxeCompleter_cases` — a call of the completer drops or flushes the send queue, waits for a
  retry, or runs the loop;
* `ReqOutcome` — what a call of the requester on an RC QP can do, after the test for a retry;
* `rxeRequester_cases` — every call is one of these.
-/
import Rxe.SendOrder

namespace Rxe

variable {c c₁ c' : Ctx} {r : CompState × Ctx} {pkt : Pkt} {s : CompCfg} {w : SendWqe}

/-! ### The loop of the completer -/

/-- In a state with `P` a pass leads to one with `P`, or the call ends with `Q`. -/
structure CompRule (P : CompState → Option Pkt → Ctx → Prop) (Q : Ctx → Prop) : Prop where
  noAck : ∀ pkt c, P .getAck pkt c → c.qp.respPkts = [] → P .getWqe pkt c
  takeAck : ∀ pkt c p pkts, P .getAck pkt c → c.qp.respPkts = p :: pkts →
    P .getWqe (some p) { c with qp.respPkts := pkts, qp.comp.timeoutRetry := false }
  getWqe : ∀ pkt c, P .getWqe pkt c → P (getWqe c pkt) pkt c
  checkPsn : ∀ p w c, c.sqHead = some w → P .checkPsn (some p) c →
    P (compCheckPsn c p w).1 (some p) (compCheckPsn c p w).2
  checkAck : ∀ p w c, c.sqHead = some w → P .checkAck (some p) c →
    P (checkAck c p w).1 (some p) (Rxe.checkAck c p w).2
  read : ∀ p w c, c.sqHead = some w → P .read (some p) c →
    P (doRead c p w).1 (some p) (doRead c p w).2
  atomic : ∀ p w c, c.sqHead = some w → P .atomic (some p) c →
    P (doAtomic c p w).1 (some p) (doAtomic c p w).2
  writeSend : ∀ p w c, c.sqHead = some w → P .writeSend (some p) c →
    P (if w.state = .pending ∧ w.lastPsn = p.psn then .compAck else .updateComp) (some p) c
  compAck : ∀ p w c, c.sqHead = some w → P .compAck (some p) c →
    P (completeAck c p w).1 (some p) (completeAck c p w).2
  compWqe : ∀ pkt c, P .compWqe pkt c → P .getWqe pkt (completeWqe c pkt).2
  updateComp : ∀ p c, P .updateComp (some p) c → P .done (some p) (updateComp c p)
  done : ∀ pkt c, P .done pkt c → Q c
  timedOut : ∀ pkt c w, c.sqHead = some w → c.qp.comp.timeoutRetry → P .exit pkt c →
    P .errorRetry pkt c
  exit : ∀ pkt c, P .exit pkt c → Q (compExit c)
  retry : ∀ pkt c w, c.sqHead = some w → w.state ≠ .posted → 0 < c.qp.comp.retryCnt →
    P .errorRetry pkt c → Q (compErrorRetry c)
  retryExc : ∀ pkt c w, c.sqHead = some w → w.state ≠ .posted → c.qp.comp.retryCnt = 0 →
    P .errorRetry pkt c → P .error pkt (setStatus c 0 .retryExcErr)
  rnrRetry : ∀ p c w, c.sqHead = some w → 0 < c.qp.comp.rnrRetry → P .rnrRetry (some p) c →
    Q (compRnrRetry c p)
  rnrExc : ∀ p c w, c.sqHead = some w → c.qp.comp.rnrRetry = 0 → P .rnrRetry (some p) c →
    P .error (some p) (setStatus c 0 .rnrRetryExcErr)
  error : ∀ pkt c, P .error pkt c → Q (rxeQpError (doComplete c))
  /-- there is nothing to retry, or a state was entered without what it works on -/
  leave : ∀ state pkt c, state ≠ .error → P state pkt c → Q c

namespace CompRule

variable {P : CompState → Option Pkt → Ctx → Prop} {Q : Ctx → Prop}

/-- What holds after a pass. -/
def After (P : CompState → Option Pkt → Ctx → Prop) (Q : Ctx → Prop) : CompCfg ⊕ Bool × Ctx → Prop
  | .inl s => P s.state s.pkt s.c
  | .inr r => Q r.2

theorem withPktWqe (h : CompRule P Q) {f : Pkt → SendWqe → CompCfg ⊕ Bool × Ctx}
    (hstate : s.state ≠ .error) (hs : P s.state s.pkt s.c)
    (hf : ∀ p w, s.pkt = some p → s.c.sqHead = some w → After P Q (f p w)) :
    After P Q (s.withPktWqe f) := by
  unfold CompCfg.withPktWqe
  split
  · next p w hp hw => exact hf p w hp hw
  · exact h.leave _ _ _ hstate hs

theorem after_goto (h : P r.1 s.pkt r.2) :
    After P Q (s.goto r) := h

theorem step (h : CompRule P Q) (hs : P s.state s.pkt s.c) :
    After P Q (compStep s) := by
  obtain ⟨state, pkt, c⟩ := s
  cases state with
  | getAck =>
    unfold compStep
    dsimp only
    split
    · next hq => exact h.noAck pkt c hs hq
    · next p pkts hq => exact h.takeAck pkt c p pkts hs hq
  | getWqe => exact h.getWqe pkt c hs
  | checkPsn => exact h.withPktWqe nofun hs (by rintro p w rfl hw; exact h.checkPsn p w c hw hs)
  | checkAck => exact h.withPktWqe nofun hs (by rintro p w rfl hw; exact h.checkAck p w c hw hs)
  | read => exact h.withPktWqe nofun hs (by rintro p w rfl hw; exact h.read p w c hw hs)
  | atomic =>
    refine h.withPktWqe nofun hs ?_
    rintro p w rfl hw
    exact after_goto (h.atomic p w c hw hs)
  | writeSend => exact h.withPktWqe nofun hs (by rintro p w rfl hw; exact h.writeSend p w c hw hs)
  | compAck => exact h.withPktWqe nofun hs (by rintro p w rfl hw; exact h.compAck p w c hw hs)
  | compWqe => exact h.compWqe pkt c hs
  | updateComp =>
    cases pkt with
    | none => exact h.leave _ _ c CompState.noConfusion hs
    | some p => exact h.updateComp p c hs
  | done => exact h.done pkt c hs
  | exit =>
    -- after a timeout the head of the queue is sent again
    show After P Q (if c.qp.comp.timeoutRetry && c.sqHead.isSome then _ else _)
    split
    · next hretry =>
      obtain ⟨htimeout, hsome⟩ := Bool.and_eq_true_iff.1 hretry
      obtain ⟨w, hw⟩ := Option.isSome_iff_exists.1 hsome
      exact h.timedOut pkt c w hw htimeout hs
    · exact h.exit pkt c hs
  | errorRetry =>
    unfold compStep
    dsimp only
    split
    · exact h.leave _ _ c CompState.noConfusion hs
    · next w hw =>
      split
      · exact h.leave _ _ c CompState.noConfusion hs
      · next hposted =>
        split
        · next hcnt => exact h.retry pkt c w hw hposted hcnt hs
        · next hcnt => exact h.retryExc pkt c w hw hposted (Nat.eq_zero_of_not_pos hcnt) hs
  | rnrRetry =>
    refine h.withPktWqe nofun hs ?_
    rintro p w rfl hw
    show After P Q (if 0 < c.qp.comp.rnrRetry then _ else _)
    split
    · next hcnt => exact h.rnrRetry p c w hw hcnt hs
    · next hcnt => exact h.rnrExc p c w hw (Nat.eq_zero_of_not_pos hcnt) hs
  | error => exact h.error pkt c hs

theorem run (h : CompRule P Q) {n : ℕ} {r : Bool × Ctx} (hs : P s.state s.pkt s.c)
    (hrun : Loop.run compStep n s = some r) : Q r.2 := by
  refine Loop.run_inv (I := fun s : CompCfg => P s.state s.pkt s.c) (Q := fun r => Q r.2) ?_ ?_ hs
    hrun
  · intro s s' hs hstep
    have hafter := h.step hs
    rwa [hstep] at hafter
  · intro s r hs hstep
    have hafter := h.step hs
    rwa [hstep] at hafter

end CompRule

theorem withPktWqe_inl {s' : CompCfg} {f : Pkt → SendWqe → CompCfg ⊕ Bool × Ctx}
    (h : s.withPktWqe f = .inl s') :
    ∃ p w, s.pkt = some p ∧ s.c.sqHead = some w ∧ f p w = .inl s' := by
  unfold CompCfg.withPktWqe at h
  split at h
  · next p w hp hw => exact ⟨p, w, hp, hw, h⟩
  · cases h

theorem errorRetry_inl {s' : CompCfg} {pkt : Option Pkt}
    (h : compStep ⟨.errorRetry, pkt, c⟩ = .inl s') :
    ∃ w, c.sqHead = some w ∧ s' = ⟨.error, pkt, setStatus c 0 .retryExcErr⟩ := by
  unfold compStep at h
  dsimp only at h
  split at h
  · cases h
  · next w hw =>
    split at h
    · cases h
    · split at h
      · cases h
      · cases h
        exact ⟨w, hw, rfl⟩

theorem rnrRetry_inl {s' : CompCfg} {pkt : Option Pkt}
    (h : compStep ⟨.rnrRetry, pkt, c⟩ = .inl s') :
    ∃ w, c.sqHead = some w ∧ s' = ⟨.error, pkt, setStatus c 0 .rnrRetryExcErr⟩ := by
  obtain ⟨p, w, -, hw, hf⟩ := withPktWqe_inl h
  split at hf
  · cases hf
  · cases hf
    exact ⟨w, hw, rfl⟩

/-- The completer as it enters its loop. -/
def compEnter (c : Ctx) : Ctx :=
  { c with qp.comp.timeoutRetry := c.qp.comp.timeout, qp.comp.timeout := false }

/-- A call of the completer. -/
theorem rxeCompleter_cases {r : Bool × Ctx} (h : rxeCompleter c = some r) :
    ((c.qp.valid = false ∨ c.qp.req.state = .reset) ∧ r = (false, compDrop c)) ∨
    (c.qp.req.state = .error ∧ r = (false, compFlush c)) ∨
    (c.qp.req.state ≠ .error ∧ c.qp.req.needRetry ∧ r = (false, compEnter c)) ∨
    (c.qp.valid ∧ c.qp.req.state ≠ .error ∧ c.qp.req.state ≠ .reset ∧ c.qp.req.needRetry = false ∧
      Loop.run compStep (compFuel (compEnter c)) ⟨.getAck, none, compEnter c⟩ = some r) := by
  unfold rxeCompleter at h
  split at h
  · next hvalid =>
    cases h
    exact Or.inl ⟨Or.inl hvalid, rfl⟩
  · next hvalid =>
    split at h
    · next herr =>
      cases h
      exact Or.inr (Or.inl ⟨herr, rfl⟩)
    · next herr =>
      split at h
      · next hreset =>
        cases h
        exact Or.inl ⟨Or.inr hreset, rfl⟩
      · next hreset =>
        dsimp only at h
        split at h
        · next hretry =>
          cases h
          exact Or.inr (Or.inr (Or.inl ⟨herr, hretry, rfl⟩))
        · next hretry =>
          exact Or.inr (Or.inr (Or.inr ⟨by simpa using hvalid, herr, hreset, by simpa using hretry,
            h⟩))

theorem rxeQpReset_frame {c' : Ctx} (h : rxeQpReset c = some c') :
    ∃ req resp sq rq pkts,
      c' = { c with qp.req := req, qp.resp := resp, qp.sq := sq, qp.rq := rq,
                    qp.reqPkts := pkts, qp.respPkts := [], qp.ssn := 0 } ∧
      req.state = .reset ∧ resp.state = .reset ∧
      ∃ c₁ n, c₁.qp.sq = c.qp.sq ∧ sq = (dropSq n c₁).qp.sq := by
  obtain ⟨⟨b₁, c₁⟩, hresp, h⟩ := Option.bind_eq_some_iff.1 h
  obtain ⟨⟨b₂, c₂⟩, hcomp, h⟩ := Option.bind_eq_some_iff.1 h
  obtain ⟨⟨b₃, c₃⟩, hreq, h⟩ := Option.bind_eq_some_iff.1 h
  cases h
  -- the responder, the completer and the requester run in the reset state
  have h₁ : ∃ resp rq pkts, resp.state = .reset ∧
      c₁ = { c with qp.req.state := .reset, qp.resp := resp, qp.rq := rq, qp.reqPkts := pkts } := by
    unfold rxeResponder at hresp
    dsimp only at hresp
    split at hresp <;> cases hresp <;> exact ⟨_, _, _, rfl, rfl⟩
  obtain ⟨resp, rq, pkts, hreset, hc₁⟩ := h₁
  have hreset₁ : c₁.qp.req.state = .reset := by rw [hc₁]
  have h₂ : c₂ = compDrop c₁ := by
    unfold rxeCompleter at hcomp
    rw [hreset₁] at hcomp
    split at hcomp
    · cases hcomp
      rfl
    · rw [if_neg nofun, if_pos rfl] at hcomp
      cases hcomp
      rfl
  obtain ⟨req, sq, hdrop, hstate⟩ := dropSq_qp c₁.qp.sq.live.length { c₁ with qp.respPkts := [] }
  unfold compDrop at h₂
  have hsq : ∃ c₂ n, c₂.qp.sq = c.qp.sq ∧ sq = (dropSq n c₂).qp.sq :=
    ⟨{ c₁ with qp.respPkts := [] }, _, by rw [hc₁], by rw [hdrop]⟩
  replace hstate : req.state = .reset := hstate.trans hreset₁
  rw [hdrop] at h₂
  subst h₂ hc₁
  unfold rxeRequester at hreq
  split at hreq <;> cases hreq <;> exact ⟨_, _, sq, rq, pkts, rfl, hstate, hreset, hsq⟩

/-! ### What the tests of the completer can say -/

/-- What `check_psn` of the completer can find. -/
inductive PsnOutcome (c : Ctx) (pkt : Pkt) (w : SendWqe) : CompState × Ctx → Prop
  | lost (h : 0 < psnCompare pkt.psn w.lastPsn) (hw : w.state = .pending)
      (hmask : w.mask.atomicOrRead) : PsnOutcome c pkt w (.errorRetry, c)
  | implied (h : 0 < psnCompare pkt.psn w.lastPsn) (hw : w.state = .pending)
      (hmask : w.mask.atomicOrRead = false) : PsnOutcome c pkt w (.compWqe, resetRetryCounters c)
  | early (h : 0 < psnCompare pkt.psn w.lastPsn) (hw : w.state ≠ .pending) :
      PsnOutcome c pkt w (.done, c)
  | again (h : ¬ 0 < psnCompare pkt.psn w.lastPsn) (hpsn : psnCompare pkt.psn c.qp.comp.psn < 0)
      (hlast : pkt.psn = w.lastPsn) : PsnOutcome c pkt w (.compAck, c)
  | old (h : ¬ 0 < psnCompare pkt.psn w.lastPsn) (hpsn : psnCompare pkt.psn c.qp.comp.psn < 0)
      (hlast : pkt.psn ≠ w.lastPsn) : PsnOutcome c pkt w (.done, c)
  | skipped (h : ¬ 0 < psnCompare pkt.psn w.lastPsn) (hpsn : 0 < psnCompare pkt.psn c.qp.comp.psn)
      (hmask : w.mask.atomicOrRead) : PsnOutcome c pkt w (.errorRetry, c)
  | current (h : ¬ 0 < psnCompare pkt.psn w.lastPsn)
      (hpsn : ¬ psnCompare pkt.psn c.qp.comp.psn < 0)
      (hnext : ¬ (0 < psnCompare pkt.psn c.qp.comp.psn ∧ w.mask.atomicOrRead)) :
      PsnOutcome c pkt w (.checkAck, c)

theorem compCheckPsn_outcome (c : Ctx) (pkt : Pkt) (w : SendWqe) :
    PsnOutcome c pkt w (compCheckPsn c pkt w) := by
  unfold compCheckPsn
  split
  · next hpast =>
    split
    · next hw =>
      split
      · next hmask => exact .lost hpast hw hmask
      · next hmask => exact .implied hpast hw (by simpa using hmask)
    · next hw => exact .early hpast hw
  · next hpast =>
    dsimp only
    split
    · next hpsn =>
      split
      · next hlast => exact .again hpast hpsn hlast
      · next hlast => exact .old hpast hpsn hlast
    · next hpsn =>
      split
      · next hskip => exact .skipped hpast hskip.1 hskip.2
      · next hskip => exact .current hpast hpsn hskip

/-- The response is none of those the WQE can have. -/
def misfit (pkt : Pkt) (w : SendWqe) : Prop :=
  match pkt.opcode with
  | .rcRdmaReadResponseFirst | .rcRdmaReadResponseLast | .rcRdmaReadResponseOnly =>
    pkt.aethType ≠ aethAck ∨ ¬ (w.ibwr.opcode = .rdmaRead ∨ w.ibwr.opcode = .rdmaReadWithInv)
  | .rcRdmaReadResponseMiddle =>
    ¬ (w.ibwr.opcode = .rdmaRead ∨ w.ibwr.opcode = .rdmaReadWithInv)
  | .rcAtomicAcknowledge =>
    pkt.aethType ≠ aethAck ∨
      ¬ (w.ibwr.opcode = .atomicCmpAndSwp ∨ w.ibwr.opcode = .atomicFetchAndAdd)
  | .rcAcknowledge => pkt.aethType ≠ aethAck ∧ pkt.aethType ≠ aethRnrNak ∧ pkt.aethType ≠ aethNak
  | _ => True

/-- The tests of `check_ack` that a response fails other than as a NAK. -/
def unfit (c : Ctx) (pkt : Pkt) (w : SendWqe) : Prop :=
  ackSeqOk c.qp.comp.opcode pkt = false ∨ misfit pkt w

/-- What `check_ack` can find. -/
inductive AckOutcome (c : Ctx) (pkt : Pkt) (w : SendWqe) : CompState × Ctx → Prop
  | unfit (h : unfit c pkt w) : AckOutcome c pkt w (.error, c)
  | read (hw : w.ibwr.opcode = .rdmaRead ∨ w.ibwr.opcode = .rdmaReadWithInv)
      (hop : pkt.opcode ≠ .rcAcknowledge) (hfit : ¬ Rxe.unfit c pkt w) :
      AckOutcome c pkt w (.read, resetRetryCounters c)
  | atomic (hw : w.ibwr.opcode = .atomicCmpAndSwp ∨ w.ibwr.opcode = .atomicFetchAndAdd)
      (hop : pkt.opcode ≠ .rcAcknowledge) (hfit : ¬ Rxe.unfit c pkt w) :
      AckOutcome c pkt w (.atomic, resetRetryCounters c)
  | ack (h : pkt.opcode = .rcAcknowledge) (hack : pkt.aethType = aethAck)
      (hfit : ¬ Rxe.unfit c pkt w) : AckOutcome c pkt w (.writeSend, resetRetryCounters c)
  | rnr (h : pkt.opcode = .rcAcknowledge) (hrnr : pkt.aethType = aethRnrNak) :
      AckOutcome c pkt w (.rnrRetry, c)
  | seq (h : pkt.opcode = .rcAcknowledge) (hnak : pkt.aethType = aethNak) :
      AckOutcome c pkt w (.errorRetry, c)
  | seqPast (hpsn : 0 < psnCompare pkt.psn c.qp.comp.psn) (h : pkt.opcode = .rcAcknowledge)
      (hnak : pkt.aethType = aethNak) :
      AckOutcome c pkt w (.errorRetry, wakeWaitPsn { c with qp.comp.psn := pkt.psn })
  | nak (status : WcStatus) (hstatus : status ≠ .success) (hfit : ¬ Rxe.unfit c pkt w)
      (h : pkt.opcode = .rcAcknowledge) (hnak : pkt.aethType = aethNak) :
      AckOutcome c pkt w (.error, setStatus c 0 status)

theorem checkAcknowledge_outcome (c : Ctx) (w : SendWqe)
    (hseq : ackSeqOk c.qp.comp.opcode pkt ≠ false) (h : pkt.opcode = .rcAcknowledge) :
    AckOutcome c pkt w (checkAcknowledge c pkt) := by
  have hunfit : unfit c pkt w ↔
      pkt.aethType ≠ aethAck ∧ pkt.aethType ≠ aethRnrNak ∧ pkt.aethType ≠ aethNak := by
    rw [unfit, or_iff_right hseq, misfit, h]
  unfold checkAcknowledge
  split
  · next hack => exact .ack h hack fun hno => (hunfit.1 hno).1 hack
  · next hack =>
    split
    · next hrnr => exact .rnr h hrnr
    · next hrnr =>
      split
      · next hnak =>
        have hfit : ¬ unfit c pkt w := fun hno => (hunfit.1 hno).2.2 hnak
        split
        · split
          · next hpsn => exact .seqPast hpsn h hnak
          · exact .seq h hnak
        · split
          · exact .nak _ nofun hfit h hnak
          · split <;> exact .nak _ nofun hfit h hnak
      · next hnak => exact .unfit (hunfit.2 ⟨hack, hrnr, hnak⟩)

theorem checkAck_outcome (c : Ctx) (pkt : Pkt) (w : SendWqe) :
    AckOutcome c pkt w (checkAck c pkt w) := by
  unfold checkAck
  dsimp only
  split
  · next hseq => exact .unfit (Or.inl hseq)
  · next hseq =>
    have hunfit : unfit c pkt w ↔ misfit pkt w := or_iff_right hseq
    have hread : pkt.opcode ≠ .rcAcknowledge →
        (misfit pkt w ↔ ¬ (w.ibwr.opcode = .rdmaRead ∨ w.ibwr.opcode = .rdmaReadWithInv)) →
        AckOutcome c pkt w
          (if w.ibwr.opcode = .rdmaRead ∨ w.ibwr.opcode = .rdmaReadWithInv then
            (CompState.read, resetRetryCounters c) else (.error, c)) := by
      intro hop hmis
      split
      · next hw => exact .read hw hop (by rw [hunfit, hmis]; exact not_not.2 hw)
      · next hw => exact .unfit (Or.inr (hmis.2 hw))
    -- all but the middle response of a read carry an AETH
    have hdata : pkt.opcode ≠ .rcAcknowledge → (misfit pkt w ↔ pkt.aethType ≠ aethAck ∨
          ¬ (w.ibwr.opcode = .rdmaRead ∨ w.ibwr.opcode = .rdmaReadWithInv)) →
        AckOutcome c pkt w
          (if pkt.aethType ≠ aethAck then (.error, c) else
            if w.ibwr.opcode = .rdmaRead ∨ w.ibwr.opcode = .rdmaReadWithInv then
              (CompState.read, resetRetryCounters c) else (.error, c)) := by
      intro hop hmis
      split
      · next hack => exact .unfit (Or.inr (hmis.2 (Or.inl hack)))
      · next hack => exact hread hop (hmis.trans (or_iff_right hack))
    split
    · next hop => exact hdata (by rw [hop]; nofun) (by rw [misfit, hop])
    · next hop => exact hdata (by rw [hop]; nofun) (by rw [misfit, hop])
    · next hop => exact hdata (by rw [hop]; nofun) (by rw [misfit, hop])
    · next hop => exact hread (by rw [hop]; nofun) (by rw [misfit, hop])
    · next hop =>
      have hmis : misfit pkt w ↔ pkt.aethType ≠ aethAck ∨
          ¬ (w.ibwr.opcode = .atomicCmpAndSwp ∨ w.ibwr.opcode = .atomicFetchAndAdd) := by
        rw [misfit, hop]
      split
      · next hack => exact .unfit (Or.inr (hmis.2 (Or.inl hack)))
      · next hack =>
        split
        · next hw =>
          refine .atomic hw (by rw [hop]; nofun) ?_
          rw [hunfit, hmis, or_iff_right hack]
          exact not_not.2 hw
        · next hw => exact .unfit (Or.inr (hmis.2 (Or.inr hw)))
    · next hop => exact checkAcknowledge_outcome c w hseq hop
    · next h₁ h₂ h₃ h₄ h₅ h₆ =>
      refine .unfit (Or.inr ?_)
      unfold misfit
      split
      · next hop => exact absurd hop h₁
      · next hop => exact absurd hop h₂
      · next hop => exact absurd hop h₃
      · next hop => exact absurd hop h₄
      · next hop => exact absurd hop h₅
      · next hop => exact absurd hop h₆
      · trivial

theorem copyResponse_outcome (c : Ctx) (pkt : Pkt) (w : SendWqe) (data : List UInt8)
    (next : DmaInfo → CompState) :
    ∃ dma dev, copyResponse c pkt w data next =
        (.error, { c with dev }.setWqe 0 fun w => { w with dma }) ∨
      copyResponse c pkt w data next =
        (next dma, ({ c with dev }.setWqe 0 fun w => { w with dma }).emit (.copied pkt w.ssn)) := by
  unfold copyResponse
  split
  · next dma dev _ _ => exact ⟨dma, dev, Or.inl rfl⟩
  · next dma dev _ => exact ⟨dma, dev, Or.inr rfl⟩

theorem postSendCqe_qp (c : Ctx) (w : SendWqe) : (postSendCqe c w).qp = c.qp := by
  obtain ⟨cq, es, -, h⟩ := postSendCqe_frame c w
  rw [h]

theorem doComplete_pop (hw : c.sqHead = some w) :
    (doComplete c).qp.sq = c.qp.sq.pop ∧
      (doComplete c).qp.req.wqeIndex = c.qp.sq.rebase c.qp.req.wqeIndex ∧
      (doComplete c).qp.comp.psn = c.qp.comp.psn := by
  have hpop : (advanceSq (postSendCqe c w)).qp.sq = c.qp.sq.pop ∧
      (advanceSq (postSendCqe c w)).qp.req.wqeIndex = c.qp.sq.rebase c.qp.req.wqeIndex ∧
      (advanceSq (postSendCqe c w)).qp.comp.psn = c.qp.comp.psn := by
    unfold advanceSq
    rw [postSendCqe_qp]
    exact ⟨rfl, rfl, rfl⟩
  unfold doComplete
  rw [hw]
  unfold wakeWaitFence
  dsimp only
  split <;> exact hpop

/-- What `get_wqe` finds. -/
inductive WqeOutcome (c : Ctx) (pkt : Option Pkt) : CompState → Prop
  | idle : WqeOutcome c pkt .exit
  | unasked : WqeOutcome c pkt .done
  | done {w : SendWqe} (hw : c.sqHead = some w) (hstate : w.state = .done) :
      WqeOutcome c pkt .compWqe
  | failed {w : SendWqe} (hw : c.sqHead = some w) (hstate : w.state = .error) :
      WqeOutcome c pkt .error
  | busy {w : SendWqe} (hw : c.sqHead = some w)
      (hstate : w.state = .pending ∨ w.state = .processing) : WqeOutcome c pkt .checkPsn

theorem getWqe_outcome (c : Ctx) (pkt : Option Pkt) : WqeOutcome c pkt (getWqe c pkt) := by
  unfold getWqe
  split
  · split
    · exact .unasked
    · exact .idle
  · next w hw =>
    split
    · split
      · exact .unasked
      · exact .idle
    · next hstate => exact .done hw hstate
    · next hstate => exact .failed hw hstate
    · next hstate =>
      split
      · exact .busy hw (Or.inr hstate)
      · exact .idle
    · next hstate =>
      split
      · exact .busy hw (Or.inl hstate)
      · exact .idle

theorem wakeWaitPsn_advance_sq (c : Ctx) (pkt : Pkt) :
    (wakeWaitPsn (advanceCompPsn c pkt)).qp.sq = c.qp.sq := by
  unfold wakeWaitPsn advanceCompPsn
  split <;> split <;> rfl

theorem completeAck_state (c : Ctx) (pkt : Pkt) (w : SendWqe) :
    (completeAck c pkt w).1 = .updateComp ∨ (completeAck c pkt w).1 = .done := by
  unfold completeAck
  dsimp only
  split
  · exact Or.inl rfl
  · exact Or.inr rfl

/-! ### What the completer can be seen to do -/

/-- What an observer has seen of a run. -/
def seen {β : Type} (g : Event → Option β) (c : Ctx) : List β := c.out.filterMap g

/-- The observer does not see completions, copied data, wake-ups and retransmission timers. -/
structure Coarse {β : Type} (g : Event → Option β) : Prop where
  sendCqe : ∀ wc w, g (.sendCqe wc w) = none
  cqErr : g .cqErr = none
  copied : ∀ pkt ssn, g (.copied pkt ssn) = none
  runReq : g .runReq = none
  runComp : g .runComp = none
  runResp : g .runResp = none
  modRetransTimer : g .modRetransTimer = none

/-- Nor the end of a drain: of what the completer does only the timer for an RNR NAK is left. -/
structure Deaf {β : Type} (g : Event → Option β) : Prop extends Coarse g where
  sqDrained : g .sqDrained = none

section Seen

variable {β : Type} {g : Event → Option β} {c : Ctx}

theorem seen_emit {e : Event} (c : Ctx) (he : g e = none) : seen g (c.emit e) = seen g c := by
  unfold seen Ctx.emit
  rw [List.filterMap_append, List.filterMap_cons_none he]
  exact List.append_nil _

theorem postSendCqe_seen (hg : Coarse g) (c : Ctx) (w : SendWqe) :
    seen g (postSendCqe c w) = seen g c := by
  unfold postSendCqe
  split
  · unfold Ctx.cqPost
    split
    · exact seen_emit _ (hg.sendCqe _ _)
    · exact seen_emit _ (hg.sendCqe _ _)
    · exact seen_emit _ hg.cqErr
  · rfl

theorem seenRel (hg : Coarse g) : CoarseRel fun c c' => seen g c' = seen g c where
  trans h h' := h'.trans h
  quiet h := by
    simp only [sendView, sideView, Prod.mk.injEq] at h
    simp only [seen, h]
  retire _ := postSendCqe_seen hg _ _
  copied c _ _ := seen_emit c (hg.copied _ _)
  runReq c := seen_emit c hg.runReq
  retrans c := seen_emit c hg.modRetransTimer
  error _ := rfl
  runComp c := seen_emit c hg.runComp
  runResp c := seen_emit c hg.runResp

theorem completeDrain_seen (hg : Deaf g) (c : Ctx) : seen g (completeDrain c) = seen g c := by
  unfold completeDrain
  split
  · exact seen_emit _ hg.sqDrained
  · rfl

/-- The observer has seen `bs`, or the timer for an RNR NAK after that and a retry to come. -/
def AfterCall (g : Event → Option β) (bs : List β) (c : Ctx) : Prop :=
  seen g c = bs ∨
    ∃ t, seen g c = bs ++ (g (.modRnrNakTimer t)).toList ∧ c.qp.req.needRetry

theorem seenRule (hg : Deaf g) (bs : List β) :
    CompRule (fun _ _ c => seen g c = bs) (AfterCall g bs) := by
  have hR := (seenRel hg.toCoarse).toCalmRel
  exact {
    noAck := fun _ _ h _ => h
    takeAck := fun _ _ _ _ h _ => h
    getWqe := fun _ _ h => h
    checkPsn := fun p w c _ h => (compCheckPsn_rel hR c p w).trans h
    checkAck := fun p w c _ h => (checkAck_rel hR c p w).trans h
    read := fun p w c _ h => (copyResponse_rel hR c p w _ _).trans h
    atomic := fun p w c _ h => (doAtomic_rel hR c p w).trans h
    writeSend := fun _ _ _ _ h => h
    compAck := fun p w c _ h => (doComplete_rel hR _).trans
      ((completeDrain_seen hg _).trans ((releaseRdAtomic_rel hR c w).trans h))
    compWqe := fun pkt c h => (completeWqe_rel hR c pkt).trans h
    updateComp := fun p c h => (updateComp_rel hR c p).trans h
    done := fun _ _ h => Or.inl h
    timedOut := fun _ _ _ _ _ h => h
    exit := fun _ c h => Or.inl ((compExit_rel hR c).trans h)
    retry := fun _ c _ _ _ _ h => Or.inl ((compErrorRetry_rel hR c).trans h)
    retryExc := fun _ _ _ _ _ _ h => h
    rnrRetry := by
      intro p c _ _ _ h
      -- the only event after which the completer is heard
      refine Or.inr ⟨rnrnakUsec.getD (p.aeth.syn % 32) 0, ?_, rfl⟩
      unfold compRnrRetry
      generalize rnrnakUsec.getD (p.aeth.syn % 32) 0 = t
      have hlast : List.filterMap g [.modRnrNakTimer t] = (g (.modRnrNakTimer t)).toList := by
        cases ht : g (.modRnrNakTimer t) <;> simp [ht]
      unfold seen Ctx.emit
      rw [List.filterMap_append, hlast]
      exact congrArg (· ++ _) h
    rnrExc := fun _ _ _ _ _ h => h
    error := fun _ c h => Or.inl
      ((rxeQpError_rel (seenRel hg.toCoarse) _).trans ((doComplete_rel hR c).trans h))
    leave := fun _ _ _ _ h => Or.inl h }

theorem rxeCompleter_seen (hg : Deaf g) {r : Bool × Ctx} (h : rxeCompleter c = some r) :
    AfterCall g (seen g c) r.2 := by
  rcases rxeCompleter_cases h with ⟨-, rfl⟩ | ⟨-, rfl⟩ | ⟨-, -, rfl⟩ | ⟨-, -, -, -, hrun⟩
  · obtain ⟨req, sq, hdrop, -⟩ := dropSq_qp c.qp.sq.live.length { c with qp.respPkts := [] }
    unfold compDrop
    rw [hdrop]
    exact Or.inl rfl
  · exact Or.inl (compFlush_rel (seenRel hg.toCoarse).toCalmRel c)
  · exact Or.inl rfl
  · exact (seenRule hg (seen g c)).run (s := ⟨.getAck, none, compEnter c⟩) rfl hrun

end Seen

/-- A request, with the `ssn` of its WQE. -/
def Event.request? : Event → Option (Pkt × ℕ)
  | .sendReq pkt ssn => some (pkt, ssn)
  | _ => none

theorem request_deaf : Deaf Event.request? :=
  ⟨⟨fun _ _ => rfl, rfl, fun _ _ => rfl, rfl, rfl, rfl, rfl⟩, rfl⟩

theorem sends_emit {e : Event} (c : Ctx) (he : e.request? = none) :
    sends (c.emit e).out = sends c.out :=
  seen_emit c he

theorem rxeCompleter_sends {r : Bool × Ctx} (h : rxeCompleter c = some r) :
    sends r.2.out = sends c.out := by
  rcases rxeCompleter_seen request_deaf h with hsame | ⟨t, hseen, -⟩
  · exact hsame
  · exact hseen.trans (List.append_nil _)

/-! ### The requester -/

/-- The requester after the test for a retry. -/
def reqStart (c : Ctx) : Ctx :=
  if c.qp.req.needRetry then { reqRetry c with qp.req.needRetry := false } else c

theorem rxeRequester_start (hvalid : c.qp.valid) (herr : c.qp.req.state ≠ .error)
    (hreset : c.qp.req.state ≠ .reset) : rxeRequester c = reqNext (reqStart c) := by
  unfold rxeRequester reqStart
  rw [if_neg (by simp [hvalid, herr]), if_neg hreset]
  split <;> rfl

/-- The WQE at `req.wqe_index`. -/
def Ctx.next (c : Ctx) : Option SendWqe := c.qp.sq.get? c.qp.req.wqeIndex

/-- `req_next_wqe` has no WQE to offer. -/
def Ctx.nothing (c : Ctx) : Prop :=
  c.qp.req.wqeIndex = c.qp.sq.live.length ∨ c.next = none ∨
    (c.qp.req.state = .drain ∨ c.qp.req.state = .drained) ∧ ∃ w ∈ c.next, w.state ≠ .processing

/-- The WQE has to wait for those before it. -/
def Ctx.fenced (c : Ctx) (w : SendWqe) : Prop :=
  c.next = some w ∧ w.ibwr.sendFlags.fence ∧ c.qp.req.wqeIndex ≠ 0

/-- `req_next_wqe` offers the WQE. -/
structure Chosen (c : Ctx) (w : SendWqe) : Prop where
  next : c.next = some w
  queued : c.qp.req.wqeIndex ≠ c.qp.sq.live.length
  drain : (c.qp.req.state = .drain ∨ c.qp.req.state = .drained) → w.state = .processing

/-- `wqe->mask` written. -/
def Ctx.masked (c : Ctx) (w : SendWqe) : Ctx :=
  c.setWqe c.qp.req.wqeIndex fun w' => { w' with mask := wrOpcodeMask w.ibwr.opcode c.qp.type }

/-- The credit check: passed without a credit, with the one the WQE has, or with a new one. -/
inductive Credited (c : Ctx) (w : SendWqe) (opcode : Opcode) : Ctx → Prop
  | free (h : (rxeOpcodeMask opcode).readOrAtomic = false) : Credited c w opcode c
  | held (h : (rxeOpcodeMask opcode).readOrAtomic) (hw : w.hasRdAtomic) : Credited c w opcode c
  | taken (h : (rxeOpcodeMask opcode).readOrAtomic) (hw : w.hasRdAtomic = false)
      (hleft : 0 < c.qp.req.rdAtomic) :
      Credited c w opcode
        { c.setWqe c.qp.req.wqeIndex fun w => { w with hasRdAtomic := true } with
          qp.req.needRdAtomic := false, qp.req.rdAtomic := c.qp.req.rdAtomic - 1 }

/-- The data of the packet is copied, or it has none. -/
inductive Loaded (c : Ctx) (opcode : Opcode) : Ctx → Prop
  | none (h : (rxeOpcodeMask opcode).writeOrSend = false) : Loaded c opcode c
  | data (h : (rxeOpcodeMask opcode).writeOrSend) (dma : DmaInfo) :
      Loaded c opcode (c.setWqe c.qp.req.wqeIndex fun w => { w with dma })

/-- The size of the next packet's payload, as the `int` the driver computes with. -/
def reqPayload (c : Ctx) (w : SendWqe) (opcode : Opcode) : ℤ :=
  let payload : ℤ := if (rxeOpcodeMask opcode).writeOrSend then s32 w.dma.resid else 0
  if s32 (getMtu c) < payload then s32 (getMtu c) else payload

/-- A packet is being built for the WQE: the opcode is chosen, the credit taken, the skb had,
and the data copied, which leaves `c'`. -/
structure Building (c : Ctx) (w : SendWqe) (opcode : Opcode) (c' : Ctx) : Prop where
  chosen : Chosen c w
  op : nextOpcode c.qp.type c.qp.mtu c.qp.req.opcode w = some opcode
  steps : ∃ c₁ skb noack out, Credited (c.masked w) w opcode c₁ ∧
    Loaded { c₁ with skb, qp.req.noackPkts := noack, qp.reqSkbOut := out } opcode c'

/-- What a call of the requester on an RC QP can do, after the test for a retry and for the end
of a drain. -/
inductive ReqOutcome (c : Ctx) : Ctx → Prop
  | idle (h : c.nothing) : ReqOutcome c c
  | fence {w : SendWqe} (h : c.fenced w) : ReqOutcome c { c with qp.req.waitFence := true }
  | window {w : SendWqe} (h : Chosen c w)
      (hgap : 0 < psnCompare c.qp.req.psn (c.qp.comp.psn + c.par.maxReqCompGap)) :
      ReqOutcome c { c.masked w with qp.req.waitPsn := true }
  | full {w : SendWqe} (h : Chosen c w) : ReqOutcome c { c.masked w with qp.needReqSkb := true }
  | invalid {w : SendWqe} (h : Chosen c w)
      (hop : nextOpcode c.qp.type c.qp.mtu c.qp.req.opcode w = none) :
      ReqOutcome c (setStatus (c.masked w) c.qp.req.wqeIndex .locQpOpErr)
  | depth {w : SendWqe} {opcode : Opcode} (h : Chosen c w)
      (hop : nextOpcode c.qp.type c.qp.mtu c.qp.req.opcode w = some opcode)
      (hread : (rxeOpcodeMask opcode).readOrAtomic) (hw : w.hasRdAtomic = false)
      (hnone : c.qp.req.rdAtomic ≤ 0) :
      ReqOutcome c { c.masked w with qp.req.needRdAtomic := true }
  | noSkb {w : SendWqe} {opcode : Opcode} (c₁ : Ctx) (skb : List Bool) (h : Chosen c w)
      (hop : nextOpcode c.qp.type c.qp.mtu c.qp.req.opcode w = some opcode)
      (hcredit : Credited (c.masked w) w opcode c₁) :
      ReqOutcome c { c₁ with skb, qp.needReqSkb := true }
  | failed {w : SendWqe} {opcode : Opcode} {c₁ c' : Ctx} {b : Bool} (h : Building c w opcode c₁)
      (hcall : rxeCompleter (c₁.setWqe c₁.qp.req.wqeIndex fun w =>
        { w with status := .locProtErr, state := .error }) = some (b, c'))
      (hdata : (rxeOpcodeMask opcode).writeOrSend) : ReqOutcome c c'
  | sent {w : SendWqe} {opcode : Opcode} {c₁ : Ctx} {pkt : Pkt} (h : Building c w opcode c₁)
      (hpkt : pkt.opcode = opcode ∧ pkt.psn = c.qp.req.psn)
      (hreth : (rxeOpcodeMask opcode).reth → pkt.reth = ⟨w.iova, w.ibwr.rkey, w.dma.length⟩) :
      ReqOutcome c ((updateState c₁ pkt (reqPayload c w opcode).toNat).emit (.sendReq pkt w.ssn))

section Requester

variable {c c' : Ctx} {b : Bool} {w : SendWqe} {opcode : Opcode}

theorem reqNextWqe_outcome (c : Ctx) :
    ((reqNextWqe c).1 = none ∧ (reqDrain c).nothing ∧ (reqNextWqe c).2 = reqDrain c) ∨
    (∃ w, (reqNextWqe c).1 = none ∧ (reqDrain c).fenced w ∧
      (reqNextWqe c).2 = { reqDrain c with qp.req.waitFence := true }) ∨
    ∃ w, Chosen (reqDrain c) w ∧ reqNextWqe c =
      (some { w with mask := wrOpcodeMask w.ibwr.opcode (reqDrain c).qp.type },
        (reqDrain c).masked w) := by
  unfold reqNextWqe
  dsimp only
  generalize reqDrain c = c₁
  split
  · next hlen => exact Or.inl ⟨rfl, Or.inl hlen, rfl⟩
  · next hlen =>
    split
    · next hnone => exact Or.inl ⟨rfl, Or.inr (Or.inl hnone), rfl⟩
    · next w hw =>
      split
      · next hdrain => exact Or.inl ⟨rfl, Or.inr (Or.inr ⟨hdrain.1, w, hw, hdrain.2⟩), rfl⟩
      · next hdrain =>
        split
        · next hfence => exact Or.inr (Or.inl ⟨w, rfl, ⟨hw, hfence.1, hfence.2⟩, rfl⟩)
        · refine Or.inr (Or.inr ⟨w, ⟨hw, hlen, fun hstate => ?_⟩, rfl⟩)
          by_contra hproc
          exact hdrain ⟨hstate, hproc⟩

theorem checkDepth_credited (c : Ctx) (w : SendWqe) (opcode : Opcode) :
    ((checkDepth c w opcode).1 ∧ Credited c w opcode (checkDepth c w opcode).2) ∨
      ((rxeOpcodeMask opcode).readOrAtomic ∧ w.hasRdAtomic = false ∧ c.qp.req.rdAtomic ≤ 0 ∧
        checkDepth c w opcode = (false, { c with qp.req.needRdAtomic := true })) := by
  unfold checkDepth checkInitDepth
  split
  · next hread =>
    split
    · next hheld => exact Or.inl ⟨rfl, .held hread hheld⟩
    · next hheld =>
      have hno : w.hasRdAtomic = false := by simpa using hheld
      split
      · next hleft => exact Or.inl ⟨rfl, .taken hread hno (by omega)⟩
      · next hleft => exact Or.inr ⟨hread, hno, by omega, rfl⟩
  · next hread => exact Or.inl ⟨rfl, .free (by simpa using hread)⟩

theorem initReqPacket_outcome (c : Ctx) (w : SendWqe) (opcode : Opcode) (payload : ℤ) :
    (∃ skb, initReqPacket c w opcode payload = (none, { c with skb })) ∨
      ∃ pkt skb noack out, pkt.opcode = opcode ∧ pkt.psn = c.qp.req.psn ∧
        ((rxeOpcodeMask opcode).reth → pkt.reth = ⟨w.iova, w.ibwr.rkey, w.dma.length⟩) ∧
        initReqPacket c w opcode payload =
          (some pkt, { c with skb, qp.req.noackPkts := noack, qp.reqSkbOut := out }) := by
  obtain ⟨skb, hskb⟩ := takeSkb_eq c
  unfold initReqPacket
  split
  next ok c₁ htake =>
    rw [htake] at hskb
    obtain rfl : c₁ = { c with skb } := hskb
    split
    · exact Or.inl ⟨skb, rfl⟩
    · right
      split
      · exact ⟨_, skb, _, _, rfl, rfl, fun h => if_pos h, rfl⟩
      · exact ⟨_, skb, _, _, rfl, rfl, fun h => if_pos h, rfl⟩

theorem fillPacket_outcome (c : Ctx) (w : SendWqe) (pkt : Pkt) (payload : ℕ) :
    Loaded c pkt.opcode (fillPacket c w pkt payload).2 ∧
      ((fillPacket c w pkt payload).1 = none → (rxeOpcodeMask pkt.opcode).writeOrSend) ∧
      ∀ pkt' ∈ (fillPacket c w pkt payload).1,
        pkt'.opcode = pkt.opcode ∧ pkt'.psn = pkt.psn ∧ pkt'.reth = pkt.reth := by
  unfold fillPacket
  split
  · next hdata =>
    split
    · exact ⟨.data hdata _, fun _ => hdata, nofun⟩
    · refine ⟨.data hdata _, nofun, ?_⟩
      rintro _ ⟨⟩
      exact ⟨rfl, rfl, rfl⟩
  · next hdata =>
    refine ⟨.none (by simpa using hdata), nofun, ?_⟩
    rintro _ ⟨⟩
    exact ⟨rfl, rfl, rfl⟩

theorem Credited.fixed (h : Credited c w opcode c₁) : c₁.fixed = c.fixed := by
  cases h <;> rfl

theorem Loaded.fixed (h : Loaded c opcode c₁) : c₁.fixed = c.fixed := by
  cases h <;> rfl

theorem Building.fixed (h : Building c w opcode c₁) : c₁.fixed = c.fixed := by
  obtain ⟨c₂, skb, noack, out, hcredit, hload⟩ := h.steps
  exact hload.fixed.trans hcredit.fixed

theorem Credited.psn (h : Credited c w opcode c₁) :
    c₁.qp.req.psn = c.qp.req.psn := by
  cases h <;> rfl

theorem reqSend_outcome (hrc : c.qp.type = .rc) (h : Chosen c w)
    (hop : nextOpcode c.qp.type c.qp.mtu c.qp.req.opcode w = some opcode)
    (hcredit : Credited (c.masked w) w opcode c₁)
    (hcall : reqSend c₁ { w with mask := wrOpcodeMask w.ibwr.opcode c.qp.type } opcode
      (reqPayload c w opcode) = some (b, c')) : ReqOutcome c c' := by
  unfold reqSend at hcall
  rcases initReqPacket_outcome c₁ { w with mask := wrOpcodeMask w.ibwr.opcode c.qp.type } opcode
    (reqPayload c w opcode) with ⟨skb, hinit⟩ | ⟨pkt, skb, noack, out, hpktop, hpsn, hreth, hinit⟩
  · rw [hinit] at hcall
    cases hcall
    exact .noSkb c₁ skb h hop hcredit
  · rw [hinit] at hcall
    dsimp only at hcall
    generalize hc₂ : ({ c₁ with skb, qp.req.noackPkts := noack, qp.reqSkbOut := out } : Ctx) = c₂
      at hcall
    obtain ⟨hload, hdata, hsame⟩ := fillPacket_outcome c₂
      { w with mask := wrOpcodeMask w.ibwr.opcode c.qp.type } pkt (reqPayload c w opcode).toNat
    rw [hpktop] at hload hdata
    split at hcall
    · next c₃ hfill =>
      rw [hfill] at hload hdata
      obtain ⟨r, hr, heq⟩ := Option.map_eq_some_iff.1 hcall
      cases heq
      exact .failed (b := r.1) ⟨h, hop, c₁, skb, noack, out, hcredit, hc₂ ▸ hload⟩ hr (hdata rfl)
    · next pkt' c₃ hfill =>
      rw [hfill] at hload hsame
      -- the packet has its data, and the WQE its cursor behind it
      have hbuild : Building c w opcode c₃ :=
        ⟨h, hop, c₁, skb, noack, out, hcredit, hc₂ ▸ hload⟩
      obtain ⟨hpktop', hpsn', hreth'⟩ := hsame pkt' rfl
      have htype : ((updateState c₃ pkt' (reqPayload c w opcode).toNat).emit
          (.sendReq pkt' w.ssn)).qp.type = .rc := by
        refine (updateState_type c₃ pkt' _).trans ((congrArg Prod.fst hload.fixed).trans ?_)
        rw [← hc₂]
        exact (congrArg Prod.fst hcredit.fixed).trans hrc
      rw [reqComplete_rc htype, ite_self] at hcall
      cases hcall
      exact .sent hbuild ⟨hpktop'.trans hpktop, hpsn'.trans (hpsn.trans hcredit.psn)⟩
        fun h => hreth'.trans (hreth h)

theorem reqNext_outcome (hrc : c.qp.type = .rc) (h : reqNext c = some (b, c')) :
    ReqOutcome (reqDrain c) c' := by
  have hrc' : (reqDrain c).qp.type = .rc := by
    unfold reqDrain
    split <;> exact hrc
  unfold reqNext at h
  rcases reqNextWqe_outcome c with ⟨hnone, hnothing, hc⟩ | ⟨w, hnone, hfence, hc⟩ | ⟨w, hw, hnext⟩
  · split at h
    · next c₁ heq =>
      rw [heq] at hc
      cases h
      obtain rfl : c' = reqDrain c := hc
      exact .idle hnothing
    · next heq =>
      rw [heq] at hnone
      cases hnone
  · split at h
    · next c₁ heq =>
      rw [heq] at hc
      cases h
      obtain rfl : c' = { reqDrain c with qp.req.waitFence := true } := hc
      exact .fence hfence
    · next heq =>
      rw [heq] at hnone
      cases hnone
  · rw [hnext] at h
    generalize reqDrain c = c₁ at h hw hrc'
    dsimp only at h
    split at h
    · next hgap =>
      cases h
      exact .window hw hgap.2
    · split at h
      · cases h
        exact .full hw
      · split at h
        · next hop =>
          cases h
          exact .invalid hw hop
        · next opcode hop =>
          unfold reqBuild at h
          rcases checkDepth_credited (c₁.masked w)
            { w with mask := wrOpcodeMask w.ibwr.opcode c₁.qp.type } opcode with
            ⟨hok, hcredit⟩ | ⟨hread, hno, hnone, hdepth⟩
          · split at h
            · next hd =>
              rw [hd] at hok
              cases hok
            · next c₂ hd =>
              rw [hd] at hcredit
              -- the mask in the slot plays no part in the credit
              have hcredit' : Credited (c₁.masked w) w opcode c₂ := by
                cases hcredit with
                | free hno => exact .free hno
                | held hread hheld => exact .held hread hheld
                | taken hread hno hleft => exact .taken hread hno hleft
              have hmtu : getMtu c₂ = getMtu c₁ := by
                cases hcredit <;> rfl
              have htype : c₂.qp.type = .rc := (congrArg Prod.fst hcredit.fixed).trans hrc'
              dsimp only at h
              rw [hmtu, if_neg (show ¬ c₂.qp.type = .ud by rw [htype]; decide)] at h
              refine reqSend_outcome hrc' hw hop hcredit' (b := b) ?_
              unfold reqPayload
              generalize (if (rxeOpcodeMask opcode).writeOrSend then s32 w.dma.resid else 0) =
                payload at h ⊢
              by_cases hlt : s32 (getMtu c₁) < payload
              · rw [if_pos hlt] at h ⊢
                exact h
              · rw [if_neg hlt] at h ⊢
                exact h
          · rw [hdepth] at h
            cases h
            exact .depth hw hop hread hno hnone

end Requester

theorem reqStart_rel {U : Ctx → Prop} {R : Ctx → Ctx → Prop} (hR : SendRel U R) (c : Ctx) :
    R c (reqStart c) := by
  unfold reqStart
  split
  · exact hR.trans (reqRetry_rel hR c) (hR.quiet rfl)
  · exact hR.refl c

/-- A call of the requester on an RC QP. -/
theorem rxeRequester_cases {b : Bool} (hrc : c.qp.type = .rc)
    (h : rxeRequester c = some (b, c')) :
    ((c.qp.valid = false ∨ c.qp.req.state = .error) ∧ c' = c) ∨
    (c.qp.req.state = .reset ∧
      c' = { c with qp.req.wqeIndex := 0, qp.req.opcode := none, qp.req.needRdAtomic := false,
                    qp.req.waitPsn := false, qp.req.needRetry := false }) ∨
    (c.qp.valid ∧ c.qp.req.state ≠ .error ∧ c.qp.req.state ≠ .reset ∧
      ReqOutcome (reqDrain (reqStart c)) c') := by
  by_cases hstop : c.qp.valid = false ∨ c.qp.req.state = .error
  · unfold rxeRequester at h
    rw [if_pos hstop] at h
    cases h
    exact Or.inl ⟨hstop, rfl⟩
  · by_cases hreset : c.qp.req.state = .reset
    · unfold rxeRequester at h
      rw [if_neg hstop, if_pos hreset] at h
      cases h
      exact Or.inr (Or.inl ⟨hreset, rfl⟩)
    · rw [not_or] at hstop
      have hvalid : c.qp.valid := by simpa using hstop.1
      rw [rxeRequester_start hvalid hstop.2 hreset] at h
      have hrc' : (reqStart c).qp.type = .rc :=
        (congrArg Prod.fst (reqStart_rel fixedRel c)).trans hrc
      exact Or.inr (Or.inr ⟨hvalid, hstop.2, hreset, reqNext_outcome hrc' h⟩)

theorem reqStart_side (c : Ctx) : SendSide c (reqDrain (reqStart c)) :=
  (reqStart_rel sideRel c).trans (reqDrain_rel sideRel _)

theorem sendAct_fixed {a : SendAct}
    (hmodify : ∀ attr, a ≠ .modify attr) (h : sendAct c a = some c') : c'.fixed = c.fixed := by
  cases a with
  | post wrs =>
    cases h
    obtain ⟨n, -, sq, es, -, hc, -, -⟩ := rxePostSend_frame c wrs
    rw [hc]
    rfl
  | requester =>
    obtain ⟨r, hcall, rfl⟩ := Option.map_eq_some_iff.1 h
    exact rxeRequester_rel fixedRel trivial hcall
  | completer =>
    obtain ⟨r, hcall, rfl⟩ := Option.map_eq_some_iff.1 h
    exact rxeCompleter_rel fixedRel trivial hcall
  | recv pkt =>
    cases h
    rfl
  | timer =>
    cases h
    unfold retransmitTimer
    split <;> rfl
  | error =>
    cases h
    exact rxeQpError_rel fixedRel.coarse c
  | modify attr => exact absurd rfl (hmodify attr)
  | env dev skb cq =>
    cases h
    rfl

end Rxe
