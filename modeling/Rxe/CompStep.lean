/-
Parts of one call of the completer, on the view of `Rxe.ReqStep`.

* `rxeCompleter_noPkt` — a call that finds no response counts a timeout or gives up;
* `rxeCompleter_pkt` — a call that finds one goes on with it.
-/
import Rxe.SendShape

namespace Rxe

variable {c c' : Ctx} {w : SendWqe}

/-! ### States that use the packet and the oldest WQE -/

section Step

variable {c : Ctx} {w : SendWqe} (pkt : Pkt) (hw : c.sqHead = some w)

include hw

theorem step_withPktWqe (state : CompState) (f : Pkt → SendWqe → CompCfg ⊕ Bool × Ctx) :
    CompCfg.withPktWqe ⟨state, some pkt, c⟩ f = f pkt w := by
  unfold CompCfg.withPktWqe
  rw [hw]

theorem step_checkPsn : compStep ⟨.checkPsn, some pkt, c⟩ =
    .inl ⟨(compCheckPsn c pkt w).1, some pkt, (compCheckPsn c pkt w).2⟩ :=
  step_withPktWqe pkt hw _ _

theorem step_checkAck : compStep ⟨.checkAck, some pkt, c⟩ =
    .inl ⟨(checkAck c pkt w).1, some pkt, (checkAck c pkt w).2⟩ :=
  step_withPktWqe pkt hw _ _

theorem step_read : compStep ⟨.read, some pkt, c⟩ =
    .inl ⟨(doRead c pkt w).1, some pkt, (doRead c pkt w).2⟩ :=
  step_withPktWqe pkt hw _ _

end Step

theorem step_getWqe (c : Ctx) (pkt : Option Pkt) :
    compStep ⟨.getWqe, pkt, c⟩ = .inl ⟨getWqe c pkt, pkt, c⟩ := rfl

theorem step_updateComp (c : Ctx) (pkt : Pkt) :
    compStep ⟨.updateComp, some pkt, c⟩ = .inl ⟨.done, some pkt, updateComp c pkt⟩ := (rfl)

theorem step_compDone (c : Ctx) (pkt : Option Pkt) : compStep ⟨.done, pkt, c⟩ = .inr (true, c) :=
  rfl

theorem wakeWaitPsn_view (c : Ctx) : reqView (wakeWaitPsn c) = reqView c := by
  unfold wakeWaitPsn
  split
  · exact reqView_emit _ rfl
  · rfl

theorem updateComp_view (c : Ctx) (pkt : Pkt) :
    reqView (updateComp c pkt) = reqView (advanceCompPsn
      { c with qp.comp.opcode := if pkt.mask.end_ then none else some pkt.opcode } pkt) :=
  wakeWaitPsn_view _

/-! ### The QP in error -/

/-- The QP is in the error state. -/
def Dead (c : Ctx) : Prop := c.qp.type = .rc ∧ c.qp.valid ∧ c.qp.req.state = .error

theorem step_error_dead (hrc : c.qp.type = .rc) (hvalid : c.qp.valid) :
    Dead (rxeQpError (doComplete c)) := by
  have hfixed : (rxeQpError (doComplete c)).fixed = c.fixed :=
    (rxeQpError_rel fixedRel.coarse _).trans (doComplete_rel fixedRel.coarse.toCalmRel c)
  exact ⟨(congrArg (·.1) hfixed).trans hrc, (congrArg (·.2.1) hfixed).trans hvalid,
    rxeQpError_reqState _⟩

theorem Dead.requester {b : Bool} (h : Dead c) (hcall : rxeRequester c = some (b, c')) :
    c' = c := by
  unfold rxeRequester at hcall
  rw [if_pos (Or.inr h.2.2)] at hcall
  cases hcall
  rfl

theorem Dead.completer {b : Bool} (h : Dead c)
    (hcall : rxeCompleter c = some (b, c')) : Dead c' := by
  have hfixed := rxeCompleter_rel fixedRel trivial hcall
  have hstates := compFlush_rel statesRel c
  unfold rxeCompleter at hcall
  rw [if_neg (by simp [h.2.1]), if_pos h.2.2] at hcall
  cases hcall
  exact ⟨(congrArg (·.1) hfixed).trans h.1, (congrArg (·.2.1) hfixed).trans h.2.1,
    (congrArg (·.2.1) hstates).trans h.2.2⟩

/-! ### A call without a response -/

/-- `reqView` without the retry counters and the request for a retry. -/
def compView (c : Ctx) : Ctx :=
  { reqView c with
    qp.req.needRetry := false
    qp.comp.timeout := false
    qp.comp.timeoutRetry := false
    qp.comp.retryCnt := 0
    qp.comp.rnrRetry := 0 }

theorem compView_of_reqView (h : reqView c' = reqView c) :
    compView c' = compView c := by
  unfold compView
  rw [h]

theorem compView_emit (c : Ctx) {e : Event} (h : e.isReq = false) :
    compView (c.emit e) = compView c :=
  compView_of_reqView (reqView_emit c h)

/-- A call that finds no response only counts. -/
def Counted (c c' : Ctx) : Prop :=
  compView c' = compView c ∧ c'.qp.comp.timeout = false ∧
    (c'.qp.req.needRetry → c.qp.req.needRetry ∨ ∃ w ∈ c.sqHead, w.state ≠ .posted)

theorem compExit_counted {c₁ : Ctx} (h : Counted c c₁) : Counted c (compExit c₁) := by
  unfold compExit
  split
  · exact ⟨(compView_emit c₁ rfl).trans h.1, h.2⟩
  · exact h

theorem compErrorRetry_counted {c₁ : Ctx} (h : Counted c c₁)
    (hw : c.sqHead = some w) (hstate : w.state ≠ .posted) : Counted c (compErrorRetry c₁) := by
  unfold compErrorRetry
  dsimp only
  split
  · exact ⟨(compView_emit _ rfl).trans h.1, h.2.1, fun _ => Or.inr ⟨w, hw, hstate⟩⟩
  · exact ⟨h.1, h.2.1, h.2.2⟩

theorem run_errorRetry (c₁ : Ctx) {pkt : Option Pkt} {r : Bool × Ctx} {n : ℕ}
    (hrc : c₁.qp.type = .rc) (hvalid : c₁.qp.valid) (hw : c.sqHead = some w)
    (hstate : w.state ≠ .posted) (hcounted : Counted c c₁)
    (h : Loop.run compStep (n + 2) ⟨.errorRetry, pkt, c₁⟩ = some r) :
    Dead r.2 ∨ Counted c r.2 := by
  have hhead : c₁.sqHead = some w := (congrArg (·.sqHead) hcounted.1).trans hw
  have hretry : compStep ⟨.errorRetry, pkt, c₁⟩ =
      if w.state = .posted then .inr (false, c₁)
      else if 0 < c₁.qp.comp.retryCnt then .inr (false, compErrorRetry c₁)
      else .inl ⟨.error, pkt, setStatus c₁ 0 .retryExcErr⟩ := by
    unfold compStep
    rw [hhead]
    rfl
  rw [if_neg hstate] at hretry
  by_cases hcnt : 0 < c₁.qp.comp.retryCnt
  · rw [if_pos hcnt] at hretry
    rw [Loop.run_succ_inr hretry] at h
    cases h
    exact Or.inr (compErrorRetry_counted hcounted hw hstate)
  · rw [if_neg hcnt] at hretry
    rw [Loop.run_succ_inl hretry,
      Loop.run_succ_inr (show compStep ⟨.error, _, _⟩ = .inr _ from rfl)] at h
    cases h
    exact Or.inl (step_error_dead hrc hvalid)

/-- Without a response the completer counts a timeout, if there is one, and gives up when
there are no retries left. -/
theorem rxeCompleter_noPkt {r : Bool × Ctx} (hrc : c.qp.type = .rc)
    (hvalid : c.qp.valid) (hready : c.qp.req.state = .ready) (hq : c.qp.respPkts = [])
    (hw : c.sqHead = some w) (hstate : w.state = .posted ∨ w.state = .pending)
    (h : rxeCompleter c = some r) :
    Dead r.2 ∨ Counted c r.2 := by
  unfold rxeCompleter at h
  rw [if_neg (by simp [hvalid]), if_neg (by simp [hready]), if_neg (by simp [hready])] at h
  dsimp only at h
  set c₁ : Ctx := { c with qp.comp.timeoutRetry := c.qp.comp.timeout, qp.comp.timeout := false }
    with hc₁
  have hcounted : Counted c c₁ := ⟨rfl, rfl, Or.inl⟩
  split at h
  · cases h
    exact Or.inr hcounted
  · have hget : compStep ⟨.getAck, none, c₁⟩ = .inl ⟨.getWqe, none, c₁⟩ := by
      unfold compStep
      rw [show c₁.qp.respPkts = [] from hq]
      rfl
    have hwqe : compStep ⟨.getWqe, none, c₁⟩ = .inl ⟨.exit, none, c₁⟩ := by
      have hexit : getWqe c₁ none = .exit := by
        unfold getWqe
        rw [show c₁.sqHead = some w from hw]
        rcases hstate with hs | hs <;> simp [hs]
      show Sum.inl (⟨getWqe c₁ none, none, c₁⟩ : CompCfg) = _
      rw [hexit]
    rw [compFuel, Loop.run_succ_inl hget, Loop.run_succ_inl hwqe] at h
    by_cases htimeout : c₁.qp.comp.timeoutRetry && c₁.sqHead.isSome
    · have hexit : compStep ⟨.exit, none, c₁⟩ = .inl ⟨.errorRetry, none, c₁⟩ := if_pos htimeout
      rw [Loop.run_succ_inl hexit] at h
      by_cases hposted : w.state = .posted
      · have hretry : compStep ⟨.errorRetry, none, c₁⟩ = .inr (false, c₁) := by
          unfold compStep
          rw [show c₁.sqHead = some w from hw]
          exact if_pos hposted
        rw [Loop.run_succ_inr hretry] at h
        cases h
        exact Or.inr hcounted
      · exact run_errorRetry c₁ hrc hvalid hw hposted hcounted h
    · have hexit : compStep ⟨.exit, none, c₁⟩ = .inr (false, compExit c₁) := if_neg htimeout
      rw [Loop.run_succ_inr hexit] at h
      cases h
      exact Or.inr (compExit_counted hcounted)

/-! ### A call with a response -/

/-- The completer as it takes a response from its queue. -/
def takeResponse (c : Ctx) (pkts : List Pkt) : Ctx :=
  { c with qp.respPkts := pkts, qp.comp.timeoutRetry := false, qp.comp.timeout := false }

theorem rxeCompleter_pkt {pkt : Pkt} {pkts : List Pkt} (hvalid : c.qp.valid)
    (hready : c.qp.req.state = .ready) (hno : c.qp.req.needRetry = false)
    (hq : c.qp.respPkts = pkt :: pkts) :
    rxeCompleter c = Loop.run compStep (3 * c.qp.sq.live.length + 7)
      ⟨.getWqe, some pkt, takeResponse c pkts⟩ := by
  unfold rxeCompleter
  rw [if_neg (by simp [hvalid]), if_neg (by simp [hready]), if_neg (by simp [hready])]
  dsimp only
  rw [if_neg (by simp [hno])]
  refine Loop.run_succ_inl ?_
  rw [hq]
  rfl

end Rxe
