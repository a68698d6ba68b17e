/-
The responder executes requests in order, each once.

For SEND, RDMA WRITE and atomic requests on an RC QP, and for any packets delivered in
any order:

* `responder_in_order` — the requests that are executed carry the PSNs
  `rq_psn, rq_psn + 1, ...` modulo `2 ^ 24`, and every positive acknowledgement carries
  the PSN of the last request executed before it.

`AckSound` is the property of the log of executions and responses; `OrderInv` ties the
log to `resp.psn` and says, for each state of the responder, how the packet in hand
relates to it.  `orderRule` is the step, `rxeResponder_order` the run.
-/
import Rxe.RespPass

namespace Rxe

variable {p : Pkt} {c : Ctx}

/-- A positive acknowledgement. -/
def Pkt.positive (ack : Pkt) : Prop :=
  ack.opcode = .rcAtomicAcknowledge ∨ (ack.mask.aeth ∧ ack.aethType = aethAck)

/-- A log in which the `n` executed requests carry the PSNs from `base` on, and every
positive acknowledgement the PSN of the request executed last. -/
inductive AckSound (base : ℕ) : ℕ → List Event → Prop
  | nil : AckSound base 0 []
  | exec {n : ℕ} {es : List Event} {pkt : Pkt} (orig : ℕ) (h : AckSound base n es)
      (hpsn : pkt.psn = (base + n) % psnMod) : AckSound base (n + 1) (es ++ [.exec pkt orig])
  | resp {n : ℕ} {es : List Event} {ack : Pkt} (h : AckSound base n es)
      (hpsn : ack.positive → psnMask (ack.psn + 1) = (base + n) % psnMod) :
      AckSound base n (es ++ [.sendResp ack])

/-- PSN of the request an event says to be executed. -/
def Event.execPsn : Event → Option ℕ
  | .exec pkt _ => some pkt.psn
  | _ => none

/-- PSNs of the executed requests of a log. -/
def execPsns (es : List Event) : List ℕ := es.filterMap Event.execPsn

theorem execPsns_append (es es' : List Event) :
    execPsns (es ++ es') = execPsns es ++ execPsns es' := List.filterMap_append

theorem execPsns_filter (es : List Event) : execPsns (es.filter Event.isResp) = execPsns es := by
  rw [execPsns, List.filterMap_filter]
  refine List.filterMap_congr fun e _ => ?_
  cases e <;> rfl

namespace AckSound

variable {base n : ℕ} {es : List Event}

theorem execPsns_eq (h : AckSound base n es) :
    execPsns es = (List.range n).map fun i => (base + i) % psnMod := by
  induction h with
  | nil => rfl
  | exec orig h hpsn ih =>
    rw [execPsns_append, ih, List.range_succ, List.map_append, List.map_singleton, ← hpsn]
    rfl
  | resp h hpsn ih =>
    rw [execPsns_append, ih]
    exact List.append_nil _

theorem ack_psn (h : AckSound base n es) {pre post : List Event} {ack : Pkt}
    (hes : es = pre ++ .sendResp ack :: post) (hack : ack.positive) :
    psnMask (ack.psn + 1) = (base + (execPsns pre).length) % psnMod := by
  -- induction on the log: the acknowledgement is its last event or lies before it
  induction h generalizing post with
  | nil => simp at hes
  | exec orig h hpsn ih =>
    rcases List.eq_nil_or_concat post with rfl | ⟨post', e, rfl⟩
    · have := congrArg List.getLast? hes
      simp at this
    · rw [List.concat_eq_append, ← List.cons_append, ← List.append_assoc] at hes
      exact ih (List.append_inj_left' hes rfl)
  | resp h hpsn ih =>
    rcases List.eq_nil_or_concat post with rfl | ⟨post', e, rfl⟩
    · have hpre := List.append_inj_left' hes rfl
      have hlast := List.append_inj_right' hes rfl
      cases hlast
      rw [hpsn hack, ← hpre, h.execPsns_eq, List.length_map, List.length_range]
    · rw [List.concat_eq_append, ← List.cons_append, ← List.append_assoc] at hes
      exact ih (List.append_inj_left' hes rfl)

end AckSound

/-- A request the responder never answers with data. -/
structure PlainReq (pkt : Pkt) : Prop where
  notRead : pkt.mask.read = false
  psn_lt : pkt.psn < psnMod

/-- How the packet in hand relates to `resp.psn` in each state of the responder. -/
def psnOk (state : RespState) (pkt : Option Pkt) (v : Ctx) : Prop :=
  match state with
  | .chkOpSeq | .chkOpValid | .chkResource | .chkLength | .chkRkey | .execute =>
    ∀ p ∈ pkt, p.psn = v.qp.resp.psn
  | .complete | .acknowledge =>
    v.qp.resp.aethSyndrome = aethAckUnlimited → ∀ p ∈ pkt, psnMask (p.psn + 1) = v.qp.resp.psn
  -- not reached: no reads are in progress, and class D1 and E errors are for UC
  | .readReply | .errMissingOpcodeLastD1e => False
  | _ => True

/-- Invariant of the responder between two calls, on the view of its context. -/
structure CallInv (base n : ℕ) (v : Ctx) : Prop where
  rc : v.qp.type = .rc
  noRes : v.qp.resp.res = none
  queued : ∀ p ∈ v.qp.reqPkts, PlainReq p
  log : AckSound base n v.out
  psn : v.qp.resp.psn = (base + n) % psnMod

theorem CallInv.qpError {base n : ℕ} (h : CallInv base n (respView c)) :
    CallInv base n (respView (rxeQpError c)) := by
  rw [rxeQpError_view (show c.qp.type = .rc from h.rc)]
  exact { h with }

/-- Invariant of the responder loop, on the view of its context. -/
structure OrderInv (base n : ℕ) (state : RespState) (pkt : Option Pkt) (v : Ctx) : Prop
    extends CallInv base n v where
  current : ∀ p ∈ pkt, PlainReq p
  flush : v.qp.resp.state = .error → pkt = none
  syn : v.qp.resp.aethSyndrome = aethAckUnlimited ∨
    v.qp.resp.aethSyndrome &&& aethTypeMask ≠ aethAck
  pos : psnOk state pkt v

namespace OrderInv

variable {base n : ℕ} {state state' : RespState} {pkt : Option Pkt} {v : Ctx}

theorem goto (h : OrderInv base n state pkt v) (hpos : psnOk state' pkt v) :
    OrderInv base n state' pkt v :=
  { h with pos := hpos }

theorem sendAck {syndrome psn : ℕ} (h : OrderInv base n state pkt (respView c))
    (hsyn : syndrome &&& aethTypeMask = aethAck → psnMask (psn + 1) = (base + n) % psnMod)
    (hpos : psnOk state' pkt (respView c)) :
    OrderInv base n state' pkt (respView (sendAck c p syndrome psn)) := by
  rcases sendAck_view c p syndrome psn with hv | ⟨ack, hop, hpsn, hs, hv⟩
  · rw [hv]
    exact h.goto hpos
  · rw [hv]
    refine { h with log := h.log.resp fun hack => ?_, pos := ?_ }
    · have hty : ack.aethType = aethAck := by
        rcases hack with hat | ⟨-, hty⟩
        · rw [hop] at hat
          cases hat
        · exact hty
      rw [Pkt.aethType, hs] at hty
      rw [hpsn, ← hsyn hty, psnMask, psnMask, psnMask, Nat.mod_add_mod]
    · cases state' <;> exact hpos

theorem classAcError {status : WcStatus} {syndrome : ℕ}
    (h : OrderInv base n state pkt (respView c)) (hsyn : syndrome &&& aethTypeMask ≠ aethAck) :
    OrderInv base n .complete pkt (respView (doClassAcError c syndrome status)) := by
  refine { h with syn := Or.inr hsyn, pos := fun heq => ?_ }
  have heq : syndrome = aethAckUnlimited := heq
  rw [heq] at hsyn
  exact absurd rfl hsyn

end OrderInv

/-! ### One pass of the loop -/

section Step

variable {base n : ℕ} {pkt : Option Pkt} {c : Ctx}

theorem getReq_order (h : OrderInv base n .getReq pkt (respView c)) :
    OrderInv base n (getReq c pkt).1 (getReq c pkt).2.1 (respView (getReq c pkt).2.2) := by
  have hres : c.qp.resp.res = none := h.noRes
  unfold getReq
  split
  · next herr =>
    -- a QP in the error state drains its queue and executes nothing
    have hnone : pkt = none := h.flush herr
    subst hnone
    split
    · exact h.goto (by simp [psnOk])
    · next p pkts hq =>
      exact { h with queued := fun q hqm => h.queued q (by
                show q ∈ c.qp.reqPkts
                rw [hq]
                exact List.mem_cons_of_mem p hqm) }
  · next herr =>
    split
    · exact h.goto trivial
    · next p pkts hq =>
      have hp : PlainReq p := h.queued p (by
        show p ∈ c.qp.reqPkts
        rw [hq]
        exact List.mem_cons_self)
      rw [hres]
      exact { h with
        current := fun q hqm => by
          obtain rfl : p = q := by simpa using hqm
          exact hp
        flush := fun he => absurd he herr
        pos := trivial }

theorem respCheckPsn_order (h : OrderInv base n .chkPsn (some p) (respView c)) :
    OrderInv base n (respCheckPsn c p).1 (some p) (respView (respCheckPsn c p).2) := by
  have hrc : c.qp.type = .rc := h.rc
  have hp : PlainReq p := h.current p rfl
  have hpsn : c.qp.resp.psn = (base + n) % psnMod := h.psn
  unfold respCheckPsn
  rw [hrc]
  dsimp only
  split
  · split
    · exact h.goto trivial
    · exact { h with pos := trivial }
  · split
    · exact h.goto trivial
    · next hle hge =>
      -- only the expected PSN goes on to be executed
      have heq : psnMask p.psn = psnMask c.qp.resp.psn := psnCompare_eq_zero.1 (by omega)
      refine { h with pos := fun q hq => ?_ }
      obtain rfl : p = q := by simpa using hq
      have hlt : c.qp.resp.psn < psnMod := by
        rw [hpsn]
        exact Nat.mod_lt _ (by decide)
      rw [psnMask, psnMask, Nat.mod_eq_of_lt hp.psn_lt, Nat.mod_eq_of_lt hlt] at heq
      exact heq

theorem checkOpSeq_order (h : OrderInv base n .chkOpSeq (some p) (respView c)) :
    OrderInv base n (checkOpSeq c p).1 (some p) (respView (checkOpSeq c p).2) := by
  have hrc : c.qp.type = .rc := h.rc
  rw [checkOpSeq_view]
  refine h.goto ?_
  have hpos : psnOk .chkOpValid (some p) (respView c) := h.pos
  rcases checkOpSeq_cases c p with heq | ⟨-, heq⟩ | ⟨-, heq⟩ | ⟨huc, -⟩ | ⟨huc, -⟩
  · rw [heq]
    exact hpos
  · rw [heq]
    trivial
  · rw [heq]
    trivial
  all_goals cases hrc.symm.trans huc

theorem checkOpValid_order (h : OrderInv base n .chkOpValid (some p) (respView c)) :
    OrderInv base n (checkOpValid c p).1 (some p) (respView (checkOpValid c p).2) := by
  have hrc : c.qp.type = .rc := h.rc
  rw [checkOpValid_view]
  refine h.goto ?_
  have hpos : psnOk .chkResource (some p) (respView c) := h.pos
  unfold checkOpValid
  rw [hrc]
  dsimp only
  split
  · trivial
  · exact hpos

theorem checkResource_order (h : OrderInv base n .chkResource pkt (respView c)) :
    OrderInv base n (checkResource c pkt).1 pkt (respView (checkResource c pkt).2) := by
  rw [checkResource_view]
  have hpos : psnOk .chkLength pkt (respView c) := h.pos
  refine h.goto ?_
  by_cases herr : c.qp.resp.state = .error
  · -- flushing: there is no packet
    have hnone : pkt = none := h.flush herr
    subst hnone
    rcases checkResource_state_error none herr with hs | hs <;> simp [hs, psnOk]
  · rcases checkResource_next pkt herr with hs | hs | hs | ⟨hs, -⟩ <;> rw [hs]
    iterate 3 trivial
    exact hpos

theorem checkRkey_order (h : OrderInv base n .chkRkey (some p) (respView c)) :
    OrderInv base n (checkRkey c p).1 (some p) (respView (checkRkey c p).2) := by
  rw [checkRkey_view]
  have hpos : psnOk .execute (some p) (respView c) := h.pos
  refine h.goto ?_
  rcases checkRkey_state c p with hs | ⟨-, hs | hs⟩ <;> rw [hs]
  · exact hpos
  all_goals trivial

theorem executeDone_order (h : OrderInv base n .execute (some p) (respView c)) :
    OrderInv base (n + 1) (executeDone c p).1 (some p) (respView (executeDone c p).2) := by
  have hp : p.psn = c.qp.resp.psn := h.pos p rfl
  have hpsn : c.qp.resp.psn = (base + n) % psnMod := h.psn
  have hlog : AckSound base (n + 1) ((respView c).out ++ [.exec p c.qp.resp.atomicOrig]) :=
    h.log.exec _ (by rw [hp, hpsn])
  have hnext : psnMask (p.psn + 1) = (base + (n + 1)) % psnMod := by
    rw [hp, hpsn, psnMask, Nat.mod_add_mod, Nat.add_assoc]
  unfold executeDone
  dsimp only
  rw [respView_emit_resp _ rfl]
  refine { h with log := hlog, psn := hnext, pos := ?_ }
  -- the request just executed is the one before the new `resp.psn`
  have hpos : psnOk .complete (some p)
      ((respView { c with qp.resp.msn := c.qp.resp.msn + 1, qp.resp.psn := psnMask (p.psn + 1),
                          qp.resp.opcode := some p.opcode, qp.resp.status := .success }).emit
        (.exec p c.qp.resp.atomicOrig)) := by
    intro _ q hq
    obtain rfl : p = q := by simpa using hq
    rfl
  split
  · exact hpos
  · split
    · exact hpos
    · trivial

theorem execute_order (h : OrderInv base n .execute (some p) (respView c)) :
    ∃ n', OrderInv base n' (execute c p).1 (some p) (respView (execute c p).2) := by
  have hread : p.mask.read = false := (h.current p rfl).notRead
  unfold execute
  rw [hread, Bool.and_false, if_neg Bool.false_ne_true]
  split
  · next err c' hdata =>
    refine ⟨n, ?_⟩
    have hv := executeData_view c p
    have herr := executeData_err (show (executeData c p).1 = some err by rw [hdata])
    rw [hdata] at hv
    rw [hv]
    refine h.goto ?_
    rcases herr with rfl | rfl | rfl | rfl <;> trivial
  · next c' hdata =>
    refine ⟨n + 1, executeDone_order ?_⟩
    have hv := executeData_view c p
    rw [hdata] at hv
    rw [hv]
    exact h

theorem respDoComplete_order (h : OrderInv base n .complete pkt (respView c)) :
    OrderInv base n (respDoComplete c pkt).1 pkt (respView (respDoComplete c pkt).2) := by
  have hv := respDoComplete_view c pkt
  rw [hv]
  refine h.goto ?_
  have hpos : psnOk .acknowledge pkt (respView c) := h.pos
  have hstate : (respDoComplete c pkt).2.qp.resp.state = c.qp.resp.state :=
    congrArg (·.qp.resp.state) hv
  rcases respDoComplete_state c pkt with hs | hs | hs
  · rw [hs]
    trivial
  · rw [hs]
    trivial
  · rw [hs, respAfterCqe, hstate]
    split
    · next herr =>
      have hnone : pkt = none := h.flush herr
      subst hnone
      simp [psnOk]
    · split
      · trivial
      · split
        · exact hpos
        · trivial

theorem sendAtomicAck_order (h : OrderInv base n .acknowledge (some p) (respView c))
    (hsyn : c.qp.resp.aethSyndrome = aethAckUnlimited) :
    OrderInv base n .cleanup (some p) (respView (sendAtomicAck c p aethAckUnlimited)) := by
  have hnext : psnMask (p.psn + 1) = (base + n) % psnMod := by
    rw [h.pos hsyn p rfl]
    exact h.psn
  unfold sendAtomicAck
  split
  · next hprep =>
    rw [prepareAckPacket_none_zero hprep, takeSkb_view]
    exact h.goto trivial
  · next ack c' hprep =>
    obtain ⟨rfl, -, hpsn, -, -, -⟩ := prepareAckPacket_some hprep
    -- keeping the response only touches the resource ring
    have h' : OrderInv base n .cleanup (some p) (respView (keepAtomicAck c.takeSkb.2 ack)) := by
      rw [keepAtomicAck_view, takeSkb_view]
      generalize respView c = v at h
      exact { h with pos := trivial }
    rcases sendClone_view (keepAtomicAck c.takeSkb.2 ack) ack with hv | hv
    · rw [hv]
      exact h'
    · rw [hv]
      refine { h' with log := h'.log.resp fun _ => ?_, pos := trivial }
      rw [hpsn, ← hnext, psnMask, psnMask, psnMask, Nat.mod_add_mod]

theorem acknowledge_order (h : OrderInv base n .acknowledge (some p) (respView c)) :
    OrderInv base n .cleanup (some p) (respView (acknowledge c p)) := by
  have hnext : c.qp.resp.aethSyndrome = aethAckUnlimited →
      psnMask (p.psn + 1) = (base + n) % psnMod := by
    intro hsyn
    rw [h.pos hsyn p rfl]
    exact h.psn
  unfold acknowledge
  split
  · exact h.goto trivial
  · split
    · next hsyn =>
      -- an error: the syndrome is a NAK
      have hnak := h.syn.resolve_left hsyn
      exact h.sendAck (fun hty => absurd hty hnak) trivial
    · next hsyn =>
      have hsyn := not_not.1 hsyn
      split
      · exact sendAtomicAck_order h hsyn
      · split
        · exact h.sendAck (fun _ => hnext hsyn) trivial
        · exact h.goto trivial

theorem duplicateAtomic_order
    (h : OrderInv base n .duplicateRequest (some p) (respView c)) :
    OrderInv base n .cleanup (some p) (respView (duplicateAtomic c p)) := by
  have hpsn : c.qp.resp.psn = (base + n) % psnMod := h.psn
  rcases duplicateAtomic_view c p with ⟨i, r, ack, -, -, hres⟩ | hres
  · rw [hres, resendAtomic, respView_emit_resp _ rfl, setRes_view, takeSkb_view]
    refine { h with log := h.log.resp fun _ => ?_, pos := trivial }
    show psnMask (psnSub c.qp.resp.psn 1 + 1) = _
    rw [psnMask_psnSub_one, hpsn, psnMask, Nat.mod_mod]
  · rw [hres]
    exact h.goto trivial

theorem duplicateRequest_order
    (h : OrderInv base n .duplicateRequest (some p) (respView c)) :
    OrderInv base n (duplicateRequest c p).1 (some p) (respView (duplicateRequest c p).2) := by
  have hpsn : c.qp.resp.psn = (base + n) % psnMod := h.psn
  unfold duplicateRequest
  split
  · split
    · refine h.sendAck (fun _ => ?_) trivial
      rw [psnMask_psnSub_one, hpsn, psnMask, Nat.mod_mod]
    · exact h.goto trivial
  · rw [(h.current p rfl).notRead, if_neg Bool.false_ne_true]
    exact duplicateAtomic_order h

theorem cleanup_order {state : RespState} (h : OrderInv base n state pkt (respView c)) :
    OrderInv base n .done pkt (respView (cleanup c pkt)) := by
  refine { h with queued := fun q hq => h.queued q ?_, pos := trivial }
  dsimp only [cleanup, respView] at hq
  split at hq
  · exact List.mem_of_mem_tail hq
  · exact hq

/-- RNR NAKs are not positive. -/
theorem respErrRnr_order (h : OrderInv base n .errRnr (some p) (respView c)) :
    OrderInv base n .cleanup (some p) (respView (respErrRnr c p)) := by
  have hty : ∀ t < 32, (aethRnrNak ||| t) &&& aethTypeMask ≠ aethAck := by decide
  unfold respErrRnr
  split
  · exact h.sendAck (fun hack => absurd hack (hty _ (Nat.mod_lt _ (by decide)))) trivial
  · exact { h with pos := trivial }

end Step

theorem classAc_nak {state : RespState} {syn : ℕ} {status : WcStatus}
    (h : classAc state = some (syn, status)) : syn &&& aethTypeMask ≠ aethAck := by
  cases state <;> cases h <;> decide

/-- Every pass keeps the invariant. -/
theorem orderRule (base : ℕ) : PassRule (fun (_ : Unit) _ => ())
    (fun _ state pkt c => ∃ n, OrderInv base n state pkt (respView c))
    (fun _ state pkt c => ∃ n, OrderInv base n state pkt (respView c))
    (fun _ c => ∃ n, CallInv base n (respView c)) where
  getReq _ _ _ h := h.imp fun _ h => getReq_order h
  chkPsn _ _ _ h := h.imp fun _ h => respCheckPsn_order h
  chkOpSeq _ _ _ h := h.imp fun _ h => checkOpSeq_order h
  chkOpValid _ _ _ h := h.imp fun _ h => checkOpValid_order h
  chkResource _ _ _ h := h.imp fun _ h => checkResource_order h
  chkLength _ _ _ h := h.imp fun _ h => h.goto h.pos
  chkRkey _ _ _ h := h.imp fun _ h => checkRkey_order h
  execute _ _ _ h := h.elim fun _ h => execute_order h
  complete _ _ _ h := h.imp fun _ h => respDoComplete_order h
  readReply _ _ _ h := h.elim fun _ h => h.pos.elim
  acknowledge _ _ _ h := h.imp fun _ h => acknowledge_order h
  cleanup _ _ _ h := h.imp fun _ h => cleanup_order h
  duplicateRequest _ _ _ h := h.imp fun _ h => duplicateRequest_order h
  errPsn _ _ _ h := h.imp fun _ h => h.sendAck (fun hty => absurd hty (by decide)) trivial
  errAc _ _ _ _ _ _ hclass h := h.imp fun _ h => h.classAcError (classAc_nak hclass)
  errD1e _ _ _ h := h.elim fun _ h => h.pos.elim
  errRnr _ _ _ h := h.imp fun _ h => respErrRnr_order h
  errRkey _ _ c h := by
    obtain ⟨n, h⟩ := h
    rw [respErrRkey, if_pos (show c.qp.type = .rc from h.rc)]
    exact ⟨n, h.classAcError (by decide)⟩
  errLength _ _ c h := by
    obtain ⟨n, h⟩ := h
    rw [respErrLength, if_pos (show c.qp.type = .rc from h.rc)]
    exact ⟨n, h.classAcError (by decide)⟩
  toError _ _ _ _ _ h := h.imp fun _ h => h.goto trivial
  leave _ _ _ _ _ h := h.imp fun _ h => h.toCallInv
  error _ _ c h := h.imp fun _ h =>
    CallInv.qpError (c := { c with qp.resp.gotoError := false }) { h.toCallInv with }
  reset _ _ _ h := h.imp fun _ h => { h.toCallInv with queued := nofun }

/-! ### Runs -/

/-- One call of `rxe_responder` preserves the invariant. -/
theorem rxeResponder_order {base n fuel : ℕ} {r : Bool × Ctx}
    (h : CallInv base n (respView c)) (hr : rxeResponder fuel c = some r) :
    ∃ n', CallInv base n' (respView r.2) := by
  refine (orderRule base).call ?_ hr
  unfold respEnter
  dsimp only
  split
  · exact ⟨n, { h with }⟩
  · refine ⟨n, { h with current := nofun, flush := fun _ => rfl, syn := Or.inl rfl, pos := ?_ }⟩
    split <;> trivial

/-- An operation of a run that delivers no read request. -/
def RespOp.plain : RespOp → Prop
  | .recv pkt => PlainReq pkt
  | _ => True

theorem respOp_order {base : ℕ} {c' : Ctx} {op : RespOp}
    (h : ∃ n, CallInv base n (respView c)) (hop : op.plain) (hc : respOp c op = some c') :
    ∃ n, CallInv base n (respView c') := by
  obtain ⟨n, h⟩ := h
  cases op with
  | recv pkt =>
    cases hc
    refine ⟨n, ?_⟩
    rw [rxeRespQueuePkt, respView_emit _ rfl]
    refine { h with queued := fun q hq => ?_ }
    rcases List.mem_append.1 hq with hq | hq
    · exact h.queued q hq
    · rw [List.mem_singleton.1 hq]
      exact hop
  | task fuel =>
    obtain ⟨r, hr, rfl⟩ := Option.map_eq_some_iff.1 hc
    exact rxeResponder_order h hr
  | postRecv wrs =>
    cases hc
    refine ⟨n, ?_⟩
    unfold rxePostRecv
    split
    · exact h
    · exact { h with }
  | error =>
    cases hc
    exact ⟨n, h.qpError⟩
  | env dev skb cq =>
    cases hc
    exact ⟨n, { h with }⟩

/-- A run in which no read request arrives executes requests in order, each once, and
acknowledges only what it has executed: the executed requests carry the PSNs
`rq_psn, rq_psn + 1, ...` modulo `2 ^ 24`, and the PSN of a positive acknowledgement is
that of the request executed last. -/
theorem responder_in_order (c c' : Ctx) (ops : List RespOp) (hrc : c.qp.type = .rc)
    (hpsn : c.qp.resp.psn < psnMod) (hres : c.qp.resp.res = none) (hq : c.qp.reqPkts = [])
    (hout : c.out = []) (hops : ∀ op ∈ ops, op.plain) (hrun : respRun c ops = some c') :
    (∃ n, execPsns c'.out = (List.range n).map fun i => (c.qp.resp.psn + i) % psnMod) ∧
      ∀ (pre post : List Event) (ack : Pkt), c'.out = pre ++ .sendResp ack :: post →
        ack.positive →
        (ack.psn + 1) % psnMod = (c.qp.resp.psn + (execPsns pre).length) % psnMod := by
  have hinit : CallInv c.qp.resp.psn 0 (respView c) :=
    { rc := hrc
      noRes := hres
      queued := fun p hp => absurd (hq ▸ hp : p ∈ []) List.not_mem_nil
      log := by
        show AckSound _ 0 (c.out.filter Event.isResp)
        rw [hout]
        exact AckSound.nil
      psn := (Nat.mod_eq_of_lt hpsn).symm }
  obtain ⟨n, hinv⟩ := respRun_inv (I := fun c₁ => ∃ n, CallInv c.qp.resp.psn n (respView c₁))
    (fun _ _ _ => respOp_order) ⟨0, hinit⟩ hops hrun
  have hlog : AckSound c.qp.resp.psn n (c'.out.filter Event.isResp) := hinv.log
  refine ⟨⟨n, by rw [← execPsns_filter, hlog.execPsns_eq]⟩, fun pre post ack hsplit hack => ?_⟩
  -- the invariant speaks of the responder's own events; the split of the log splits them too
  have hes : c'.out.filter Event.isResp =
      pre.filter Event.isResp ++ .sendResp ack :: post.filter Event.isResp := by
    rw [hsplit, List.filter_append, List.filter_cons_of_pos rfl]
  have h := hlog.ack_psn hes hack
  rwa [execPsns_filter] at h

/-- An RC QP that expects PSN `2 ^ 24 - 1` and has two receive WQEs. -/
def wrapQp : Ctx :=
  { qp :=
      { type := .rc
        sq := ⟨[], []⟩
        rq := ⟨[{ wrId := 1 }, { wrId := 2 }], [{}]⟩
        resp := { state := .ready, psn := 2 ^ 24 - 1 } } }

/-- Two sends whose PSNs wrap around, the first of them delivered twice. -/
def wrapOps : List RespOp :=
  let send (psn : ℕ) : Pkt := { opcode := .rcSendOnly, psn, ackReq := true }
  [.recv (send (2 ^ 24 - 1)), .task 20, .recv (send (2 ^ 24 - 1)), .recv (send 0), .task 20,
    .task 20]

theorem responder_in_order_wrap :
    ∃ c', respRun wrapQp wrapOps = some c' ∧ execPsns c'.out = [2 ^ 24 - 1, 0] ∧
      ∀ (pre post : List Event) (ack : Pkt), c'.out = pre ++ .sendResp ack :: post →
        ack.positive → (ack.psn + 1) % psnMod = (2 ^ 24 - 1 + (execPsns pre).length) % psnMod := by
  refine ⟨_, rfl, rfl, (responder_in_order wrapQp _ wrapOps rfl (by decide) rfl rfl rfl ?_ rfl).2⟩
  intro op hop
  simp only [wrapOps, List.mem_cons, List.not_mem_nil, or_false] at hop
  rcases hop with rfl | rfl | rfl | rfl | rfl | rfl
  · exact ⟨rfl, by decide⟩
  · trivial
  · exact ⟨rfl, by decide⟩
  · exact ⟨rfl, by decide⟩
  · trivial
  · trivial

end Rxe
