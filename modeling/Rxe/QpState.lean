/-
The states of a queue pair (`rxe_qp.c`, `ib_modify_qp_is_ok` in `core/verbs.c`).

A QP has three state variables: `attr.qp_state` is written by the modify verb only,
`req.state` and `resp.state` by the modify verb and by the tasks.

* `ibModifyQpIsOk`, `rxeQpChkAttr` — which calls of the modify verb are accepted;
* `stateStep` — the writes to the three variables: an accepted call of the modify verb, an
  error found by a task, a send queue that has drained;
* `qpRun_refines` — a run of the verb and the tasks is a run of these writes, with the same
  calls of the verb;
* `qp_states_coherent_iff` — the three variables agree along a run exactly if every error is
  found in a QP that is in the error state already, and no call moves to RTS a QP that is in
  RESET, INIT or ERR.
-/
import Rxe.CompStep
import Rxe.PassFrame

namespace Rxe

variable {c c' : Ctx} {w : SendWqe}

/-! ### The checks of the modify verb -/

/-- `enum ib_qp_attr_mask` -/
inductive AttrMask
  | state | curState | enSqdAsyncNotify | accessFlags | pkeyIndex | port | qkey | av | pathMtu
  | timeout | retryCnt | rnrRetry | rqPsn | maxQpRdAtomic | altPath | minRnrTimer | sqPsn
  | maxDestRdAtomic | pathMigState | cap | destQpn
  deriving DecidableEq, Repr

/-- A valid entry of `qp_state_table`. -/
structure StateEntry where
  reqParam : QpType → List AttrMask := fun _ => []
  optParam : QpType → List AttrMask := fun _ => []

/-- `qp_state_table`; an entry whose `valid` is not set is `none`. -/
def qpStateTable : IbQpState → IbQpState → Option StateEntry
  | .reset, .reset => some {}
  | .reset, .init => some
    { reqParam := fun
        | .ud => [.pkeyIndex, .port, .qkey]
        | .uc | .rc => [.pkeyIndex, .port, .accessFlags]
        | .smi | .gsi => [.pkeyIndex, .qkey] }
  | .init, .init => some
    { optParam := fun
        | .ud => [.pkeyIndex, .port, .qkey]
        | .uc | .rc => [.pkeyIndex, .port, .accessFlags]
        | .smi | .gsi => [.pkeyIndex, .qkey] }
  | .init, .rtr => some
    { reqParam := fun
        | .uc => [.av, .pathMtu, .destQpn, .rqPsn]
        | .rc => [.av, .pathMtu, .destQpn, .rqPsn, .maxDestRdAtomic, .minRnrTimer]
        | .ud | .smi | .gsi => []
      optParam := fun
        | .ud | .smi | .gsi => [.pkeyIndex, .qkey]
        | .uc | .rc => [.altPath, .accessFlags, .pkeyIndex] }
  | .rtr, .rts => some
    { reqParam := fun
        | .ud | .uc | .smi | .gsi => [.sqPsn]
        | .rc => [.timeout, .retryCnt, .rnrRetry, .sqPsn, .maxQpRdAtomic]
      optParam := fun
        | .ud | .smi | .gsi => [.curState, .qkey]
        | .uc => [.curState, .altPath, .accessFlags, .pathMigState]
        | .rc => [.curState, .altPath, .accessFlags, .minRnrTimer, .pathMigState] }
  | .rts, .rts => some
    { optParam := fun
        | .ud | .smi | .gsi => [.curState, .qkey]
        | .uc => [.curState, .accessFlags, .altPath, .pathMigState]
        | .rc => [.curState, .accessFlags, .altPath, .pathMigState, .minRnrTimer] }
  | .rts, .sqd => some { optParam := fun _ => [.enSqdAsyncNotify] }
  | .sqd, .rts => some
    { optParam := fun
        | .ud | .smi | .gsi => [.curState, .qkey]
        | .uc => [.curState, .altPath, .accessFlags, .pathMigState]
        | .rc => [.curState, .altPath, .accessFlags, .minRnrTimer, .pathMigState] }
  | .sqd, .sqd => some
    { optParam := fun
        | .ud | .smi | .gsi => [.pkeyIndex, .qkey]
        | .uc => [.av, .altPath, .accessFlags, .pkeyIndex, .pathMigState]
        | .rc => [.port, .av, .timeout, .retryCnt, .rnrRetry, .maxQpRdAtomic, .maxDestRdAtomic,
            .altPath, .accessFlags, .pkeyIndex, .minRnrTimer, .pathMigState] }
  | .sqe, .rts => some
    { optParam := fun
        | .ud | .smi | .gsi => [.curState, .qkey]
        | .uc => [.curState, .accessFlags]
        | .rc => [] }
  | .init, .reset | .rtr, .reset | .rts, .reset | .sqd, .reset | .sqe, .reset | .err, .reset =>
    some {}
  | .init, .err | .rtr, .err | .rts, .err | .sqd, .err | .sqe, .err | .err, .err => some {}
  | _, _ => none

/-- `ib_modify_qp_is_ok` -/
def ibModifyQpIsOk (curState nextState : IbQpState) (type : QpType) (mask : List AttrMask) : Bool :=
  if .curState ∈ mask ∧ curState ∉ [.rtr, .rts, .sqd, .sqe] then false
  else
    match qpStateTable curState nextState with
    | none => false
    | some entry =>
      (entry.reqParam type).all (mask.contains ·) &&
        mask.all ((entry.reqParam type ++ entry.optParam type ++ [AttrMask.state]).contains ·)

/-- `struct ib_qp_cap` -/
structure QpCap where
  maxSendWr : ℕ := 0
  maxRecvWr : ℕ := 0
  maxSendSge : ℕ := 0
  maxRecvSge : ℕ := 0
  maxInlineData : ℕ := 0

/-- The fields of `struct ib_ah_attr` that are checked; `sgidIndex` is `none` without a GRH. -/
structure AhAttr where
  portNum : ℕ := 1
  sgidIndex : Option ℕ := none

/-- `struct ib_qp_attr`, as the caller of the modify verb fills it in. -/
structure IbQpAttr where
  qpState : IbQpState := .reset
  curQpState : IbQpState := .reset
  cap : QpCap := {}
  ahAttr : AhAttr := {}
  altAhAttr : AhAttr := {}
  maxRdAtomic : ℕ := 0
  qpAccessFlags : List Access := []
  pkeyIndex : ℕ := 0
  portNum : ℕ := 1
  pathMtu : ℕ := 0
  timeout : ℕ := 0
  retryCnt : ℕ := 0
  rnrRetry : ℕ := 0
  rqPsn : ℕ := 0
  minRnrTimer : ℕ := 0
  sqPsn : ℕ := 0
  maxDestRdAtomic : ℕ := 0
  destQpNum : ℕ := 0

/-- The limits of the device and its ports, by port number. -/
structure DevLimits where
  numPorts : ℕ := 1
  maxQpWr : ℕ := 0x4000
  maxSge : ℕ := 27
  maxInlineData : ℕ := 400
  maxQpRdAtom : ℕ := 128
  gidTblLen : ℕ → ℕ := fun _ => 32
  maxMtu : ℕ → ℕ := fun _ => 5

/-- `rxe_qp_chk_cap`: `true` where the driver returns 0. -/
def rxeQpChkCap (lim : DevLimits) (cap : QpCap) (hasSrq : Bool) : Bool :=
  cap.maxSendWr ≤ lim.maxQpWr && cap.maxSendSge ≤ lim.maxSge &&
    (hasSrq || (cap.maxRecvWr ≤ lim.maxQpWr && cap.maxRecvSge ≤ lim.maxSge)) &&
    cap.maxInlineData ≤ lim.maxInlineData

/-- `rxe_av_chk_attr`: `true` where the driver returns 0. -/
def rxeAvChkAttr (lim : DevLimits) (attr : AhAttr) : Bool :=
  1 ≤ attr.portNum && attr.portNum ≤ lim.numPorts &&
    attr.sgidIndex.all (· ≤ lim.gidTblLen attr.portNum)

/-- `cur_state` of `rxe_qp_chk_attr`: the caller may say which state the QP is in. -/
def curState (qp : Qp) (attr : IbQpAttr) (mask : List AttrMask) : IbQpState :=
  if .curState ∈ mask then attr.curQpState else qp.attr.qpState

/-- `new_state` of `rxe_qp_chk_attr`. -/
def newState (qp : Qp) (attr : IbQpAttr) (mask : List AttrMask) : IbQpState :=
  if .state ∈ mask then attr.qpState else curState qp attr mask

/-- `rxe_qp_chk_attr`: `true` where the driver returns 0. -/
def rxeQpChkAttr (lim : DevLimits) (qp : Qp) (attr : IbQpAttr) (mask : List AttrMask) : Bool :=
  ibModifyQpIsOk (curState qp attr mask) (newState qp attr mask) qp.type mask &&
  -- a QP that is still draining only leaves SQD through ERR
  !(.state ∈ mask ∧ curState qp attr mask = .sqd ∧ qp.req.state = .drain ∧
      newState qp attr mask ≠ .err) &&
  (.port ∉ mask || (1 ≤ attr.portNum && attr.portNum ≤ lim.numPorts)) &&
  (.cap ∉ mask || rxeQpChkCap lim attr.cap qp.srq.isSome) &&
  (.av ∉ mask || rxeAvChkAttr lim attr.ahAttr) &&
  (.altPath ∉ mask || rxeAvChkAttr lim attr.altAhAttr) &&
  (.pathMtu ∉ mask || attr.pathMtu ≤ lim.maxMtu qp.attr.portNum) &&
  (.maxQpRdAtomic ∉ mask || attr.maxRdAtomic ≤ lim.maxQpRdAtom) &&
  (.timeout ∉ mask || attr.timeout ≤ 31)

/-- The attributes the mask selects. -/
def IbQpAttr.masked (attr : IbQpAttr) (mask : List AttrMask) : ModifyAttr :=
  let sel {α : Type} (m : AttrMask) (x : α) : Option α := if m ∈ mask then some x else none
  { qpState := sel .state attr.qpState
    maxRdAtomic := sel .maxQpRdAtomic attr.maxRdAtomic
    qpAccessFlags := sel .accessFlags attr.qpAccessFlags
    pkeyIndex := sel .pkeyIndex attr.pkeyIndex
    portNum := sel .port attr.portNum
    pathMtu := sel .pathMtu attr.pathMtu
    timeout := sel .timeout attr.timeout
    retryCnt := sel .retryCnt attr.retryCnt
    rnrRetry := sel .rnrRetry attr.rnrRetry
    rqPsn := sel .rqPsn attr.rqPsn
    minRnrTimer := sel .minRnrTimer attr.minRnrTimer
    sqPsn := sel .sqPsn attr.sqPsn
    maxDestRdAtomic := sel .maxDestRdAtomic attr.maxDestRdAtomic
    destQpNum := sel .destQpn attr.destQpNum }

/-- `rxe_modify_qp`: `true` where the driver returns 0. -/
def rxeModifyQp (lim : DevLimits) (c : Ctx) (attr : IbQpAttr) (mask : List AttrMask) :
    Option (Bool × Ctx) :=
  if rxeQpChkAttr lim c.qp attr mask then rxeQpFromAttr c (attr.masked mask) else some (false, c)

/-! ### The writes to the state variables -/

/-- The three state variables of a QP. -/
def Ctx.states (c : Ctx) : IbQpState × QpState × QpState :=
  (c.qp.attr.qpState, c.qp.req.state, c.qp.resp.state)

/-- What the `switch` at the end of `rxe_qp_from_attr` writes to `req.state` and `resp.state`,
before a task runs. -/
def writeStates (c : Ctx) : Option IbQpState → Ctx
  | none | some .sqe => c
  | some .reset => { c with qp.req.state := .reset, qp.resp.state := .reset }
  | some .init => { c with qp.req.state := .init, qp.resp.state := .init }
  | some .rtr => { c with qp.resp.state := .ready }
  | some .rts => { c with qp.req.state := .ready }
  | some .sqd => if c.qp.req.state = .drained then c else { c with qp.req.state := .drain }
  | some .err => toErrorState c

/-- `req.state` and `resp.state` as these writes leave them. -/
def statesAfter (s : QpState × QpState) : IbQpState → QpState × QpState
  | .reset => (.reset, .reset)
  | .init => (.init, .init)
  | .rtr => (s.1, .ready)
  | .rts => (.ready, s.2)
  | .sqd => (if s.1 = .drained then .drained else .drain, s.2)
  | .sqe => s
  | .err => (.error, .error)

theorem writeStates_states (c : Ctx) (state : IbQpState) :
    (writeStates c (some state)).states = (c.states.1, statesAfter c.states.2 state) := by
  cases state with
  | reset | init | rtr | rts | sqe | err => rfl
  | sqd =>
    unfold writeStates statesAfter Ctx.states
    dsimp only
    split
    · next hdrained => rw [hdrained]
    · rfl

/-- What can happen to the state of a QP. -/
inductive StateAct
  /-- An accepted call of the modify verb. -/
  | modify (attr : IbQpAttr) (mask : List AttrMask)
  /-- `rxe_qp_error`, called by a task. -/
  | error
  /-- `QP_STATE_DRAIN` becomes `QP_STATE_DRAINED`. -/
  | drained
  /-- Anything else that a task or a verb does. -/
  | other (c' : Ctx)

def stateStep (lim : DevLimits) (c : Ctx) : StateAct → Option Ctx
  | .modify attr mask =>
    if rxeQpChkAttr lim c.qp attr mask then
      some (writeStates { c with qp := setAttrs c.par c.qp (attr.masked mask) }
        (attr.masked mask).qpState)
    else none
  | .error => some (toErrorState c)
  | .drained => if c.qp.req.state = .drain then some { c with qp.req.state := .drained } else none
  | .other c' => if c'.states = c.states then some c' else none

/-! ### The tasks are runs of these writes -/

/-- A call of the modify verb: its attributes and its mask. -/
abbrev ModifyCall := IbQpAttr × List AttrMask

/-- The call a step makes. -/
def StateAct.call : StateAct → Option ModifyCall
  | .modify attr mask => some (attr, mask)
  | .error | .drained | .other _ => none

/-- Steps lead from `c` to `c'`; `calls` are the calls of the modify verb among them. -/
def StateRun (lim : DevLimits) (calls : List ModifyCall) (c c' : Ctx) : Prop :=
  ∃ acts : List StateAct, acts.filterMap StateAct.call = calls ∧
    acts.foldlM (stateStep lim) c = some c'

namespace StateRun

variable {lim : DevLimits} {c c₁ c₂ : Ctx} {calls : List ModifyCall}

theorem append {calls' : List ModifyCall} (h : StateRun lim calls c c₁)
    (h' : StateRun lim calls' c₁ c₂) : StateRun lim (calls ++ calls') c c₂ := by
  obtain ⟨acts, rfl, hacts⟩ := h
  obtain ⟨acts', rfl, hacts'⟩ := h'
  refine ⟨acts ++ acts', List.filterMap_append, ?_⟩
  rw [List.foldlM_append, hacts]
  exact hacts'

theorem one {a : StateAct} (h : stateStep lim c a = some c₁) : StateRun lim a.call.toList c c₁ := by
  refine ⟨[a], by cases a <;> rfl, ?_⟩
  rw [List.foldlM_cons, h]
  rfl

theorem same (h : c₁.states = c.states) : StateRun lim [] c c₁ := one (a := .other c₁) (if_pos h)

theorem task (h : StateRun lim calls c c₁) (h' : StateRun lim [] c₁ c₂) :
    StateRun lim calls c c₂ :=
  List.append_nil calls ▸ h.append h'

theorem congr (h : StateRun lim calls c c₁) (heq : c₂.states = c₁.states) :
    StateRun lim calls c c₂ := h.task (same heq)

end StateRun

variable {lim : DevLimits}

theorem stateRunRel : SendRel (fun _ => True) (StateRun lim []) where
  trans := StateRun.append
  quiet h := by
    simp only [sendView, sideView, Ctx.fixed, Prod.mk.injEq] at h
    refine .same ?_
    unfold Ctx.states
    simp only [h]
  emit _ _ _ _ := .same rfl
  retire {c w} _ := by
    obtain ⟨cq, es, -, h⟩ := postSendCqe_frame c w
    rw [h]
    exact .same rfl
  error _ := .one (a := .error) rfl
  drained h := .one (a := .drained) (if_pos h)
  drop {c} _ _ := by
    obtain ⟨req, sq, h, hstate⟩ := dropSq_qp c.qp.sq.live.length { c with qp.respPkts := [] }
    unfold compDrop
    rw [h]
    refine .same ?_
    unfold Ctx.states
    rw [hstate]
  keep _ _ := trivial

theorem rxeQpError_states (c : Ctx) : (rxeQpError c).states = (toErrorState c).states := by
  unfold rxeQpError
  dsimp only
  split
  · rfl
  · have hflush := flushSq_rel statesRel c.qp.sq.live.length
      { (toErrorState c).emit .runResp with qp.respPkts := [] }
    exact congrArg (fun v => (v.1.qpState, v.2)) hflush

theorem respStep_stateRun {c₀ : Ctx} {s : RespCfg} (h : StateRun lim [] c₀ s.c) :
    StateRun lim [] c₀ (RespSys.ofPass (respStep s)).ctx := by
  obtain ⟨pkt, hchange⟩ := respStep_ctx s
  generalize (RespSys.ofPass (respStep s)).ctx = c at hchange
  cases hchange.frame with
  | getReq _ =>
    obtain ⟨pkts, hc⟩ := getReq_frame s.c s.pkt
    rw [hc]
    exact h.congr rfl
  | cleanup _ | reset _ => exact h.congr rfl
  | error _ =>
    have herror : StateRun lim [] c₀ (toErrorState s.c) := h.task (.one (a := .error) rfl)
    exact herror.congr (rxeQpError_states { s.c with qp.resp.gotoError := false })
  | work _ _ _ _ hwork =>
    obtain ⟨byte, rq, srq, resp, skb, cq, out, rfl, hstate⟩ := hwork
    refine h.congr ?_
    unfold Ctx.states
    rw [hstate]

theorem rxeResponder_stateRun {fuel : ℕ} {r : Bool × Ctx}
    (h : rxeResponder fuel c = some r) : StateRun lim [] c r.2 := by
  unfold rxeResponder at h
  dsimp only at h
  split at h
  · cases h
    exact .same rfl
  · refine Loop.run_inv (I := fun s : RespCfg => StateRun lim [] c s.c)
      (Q := fun r => StateRun lim [] c r.2) ?_ ?_ (.same rfl) h
    all_goals
      intro s next hs hstep
      have hafter := respStep_stateRun hs
      rwa [hstep] at hafter

/-! ### The modify verb is a run of these writes -/

theorem setAttrs_states (c : Ctx) (attr : ModifyAttr) :
    ({ c with qp := setAttrs c.par c.qp attr } : Ctx).states =
      (attr.qpState.getD c.qp.attr.qpState, c.qp.req.state, c.qp.resp.state) := rfl

theorem rxeQpReset_states (h : rxeQpReset c = some c') :
    c'.states = (c.qp.attr.qpState, .reset, .reset) := by
  obtain ⟨req, resp, sq, rq, pkts, rfl, hreq, hresp, -⟩ := rxeQpReset_frame h
  exact Prod.ext rfl (Prod.ext hreq hresp)

theorem setQpState_stateRun {state : Option IbQpState}
    (h : setQpState c state = some c') : StateRun lim [] (writeStates c state) c' := by
  match state with
  | none | some .init | some .rtr | some .rts | some .sqe =>
    cases h
    exact .same rfl
  | some .reset => exact .same (rxeQpReset_states h)
  | some .err =>
    cases h
    exact .same (rxeQpError_states c)
  | some .sqd =>
    change rxeQpDrain c = some c' at h
    unfold rxeQpDrain at h
    unfold writeStates
    split at h
    · next hdrained =>
      cases h
      rw [if_pos hdrained]
      exact .same rfl
    · next hdrained =>
      rw [if_neg hdrained]
      dsimp only at h
      split at h
      · cases h
        exact .same rfl
      -- the drain runs the completer, which may fail the QP
      · obtain ⟨c₁, hall, rfl⟩ := Option.map_eq_some_iff.1 h
        exact (completeAll_rel stateRunRel _ trivial hall).congr rfl

theorem setQpState_fixed {state : Option IbQpState} (h : setQpState c state = some c') :
    c'.fixed = c.fixed := by
  rcases setQpState_cases h with ⟨-, hreset⟩ | ⟨-, rfl⟩ | ⟨-, -, ⟨-, rfl⟩ | ⟨-, n, c₁, hall, rfl⟩⟩ |
    ⟨req, resp, rfl, -⟩
  · obtain ⟨req, resp, sq, rq, pkts, rfl, -⟩ := rxeQpReset_frame hreset
    rfl
  · exact rxeQpError_rel fixedRel.coarse c
  · rfl
  · have hcompleted := completeAll_rel fixedRel n trivial hall
    exact hcompleted
  · rfl

theorem writeStates_congr {c₁ : Ctx} (h : c₁.states = c.states) (state : Option IbQpState) :
    (writeStates c₁ state).states = (writeStates c state).states := by
  cases state with
  | none => exact h
  | some state => rw [writeStates_states, writeStates_states, h]

/-- An accepted call of the modify verb is the step of that name, followed by what the tasks
it runs do; a call that is not accepted leaves the state. -/
theorem rxeModifyQp_stateRun {attr : IbQpAttr} {mask : List AttrMask} {ok : Bool}
    (h : rxeModifyQp lim c attr mask = some (ok, c')) :
    StateRun lim (if ok then [(attr, mask)] else []) c c' := by
  unfold rxeModifyQp at h
  split at h
  · next hchk =>
    obtain ⟨skb, n, rd, res, head, hr | ⟨rfl, hset⟩⟩ := rxeQpFromAttr_cases h
    · cases hr
      exact .same rfl
    · have hsame : (ringAttrs c skb n rd res head (attr.masked mask)).states =
          ({ c with qp := setAttrs c.par c.qp (attr.masked mask) } : Ctx).states := rfl
      have hwrite := StateRun.one (a := .modify attr mask) (if_pos hchk)
      exact (hwrite.congr (writeStates_congr hsame _)).append (setQpState_stateRun hset)
  · cases h
    exact .same rfl

/-- The calls of a QP's verb and tasks, one after the other; `calls` are the calls of the
modify verb that were accepted. -/
inductive QpRun (lim : DevLimits) (c₀ : Ctx) : List ModifyCall → Ctx → Prop
  | start : QpRun lim c₀ [] c₀
  | modify {calls c attr mask ok c'} (hrun : QpRun lim c₀ calls c)
      (h : rxeModifyQp lim c attr mask = some (ok, c')) :
      QpRun lim c₀ (calls ++ if ok then [(attr, mask)] else []) c'
  | requester {calls c r} (hrun : QpRun lim c₀ calls c) (h : rxeRequester c = some r) :
      QpRun lim c₀ calls r.2
  | completer {calls c r} (hrun : QpRun lim c₀ calls c) (h : rxeCompleter c = some r) :
      QpRun lim c₀ calls r.2
  | responder {calls c fuel r} (hrun : QpRun lim c₀ calls c) (h : rxeResponder fuel c = some r) :
      QpRun lim c₀ calls r.2
  /-- A request is posted, a packet arrives, a timer fires. -/
  | other {calls c c'} (hrun : QpRun lim c₀ calls c) (h : c'.states = c.states) :
      QpRun lim c₀ calls c'

/-- Every run of the verb and the tasks is a run of the writes, with the same calls of the
verb in the same order. -/
theorem qpRun_refines (lim : DevLimits) (c₀ c : Ctx) (calls : List ModifyCall)
    (h : QpRun lim c₀ calls c) : StateRun lim calls c₀ c := by
  induction h with
  | start => exact .same rfl
  | modify _ h ih => exact ih.append (rxeModifyQp_stateRun h)
  | requester _ h ih => exact ih.task (rxeRequester_rel stateRunRel trivial h)
  | completer _ h ih => exact ih.task (rxeCompleter_rel stateRunRel trivial h)
  | responder _ h ih => exact ih.task (rxeResponder_stateRun h)
  | other _ h ih => exact ih.congr h

/-! ### Coherence -/

/-- What the three state variables should say of each other. -/
structure Coherent (c : Ctx) : Prop where
  err : c.qp.attr.qpState = .err ↔ c.qp.req.state = .error ∧ c.qp.resp.state = .error
  rts : c.qp.attr.qpState = .rts → c.qp.req.state = .ready ∧ c.qp.resp.state = .ready

/-- The step is a call of the modify verb that moves the QP to `state`. -/
def StateAct.movesTo (state : IbQpState) : StateAct → Prop
  | .modify attr mask => .state ∈ mask ∧ attr.qpState = state
  | _ => False

/-- The error state is left only through RESET. -/
def LeavesByReset (c : Ctx) (a : StateAct) (c' : Ctx) : Prop :=
  c.qp.req.state = .error ∧ c'.qp.req.state ≠ .error ∨
      c.qp.resp.state = .error ∧ c'.qp.resp.state ≠ .error →
    a.movesTo .reset

/-- An error is found in a QP in ERR only; a QP in RESET, INIT or ERR is not moved to RTS. -/
def StateOk (c : Ctx) (a : StateAct) : Prop :=
  match a with
  | .error => c.qp.attr.qpState = .err
  | a => a.movesTo .rts → c.qp.attr.qpState ∉ [.reset, .init, .err]

/-- The states of the requester and the responder that go with a state of the QP. -/
def settledStates : List (IbQpState × QpState × QpState) :=
  [(.reset, .reset, .reset), (.init, .init, .init), (.rtr, .init, .ready), (.rts, .ready, .ready),
    (.sqd, .drain, .ready), (.sqd, .drained, .ready), (.err, .error, .error)]

section Step

variable {lim : DevLimits} {c c' : Ctx} {attr : IbQpAttr} {mask : List AttrMask}

theorem modify_keep (h : stateStep lim c (.modify attr mask) = some c') (hmask : .state ∉ mask) :
    c'.states = c.states := by
  have hnone : (attr.masked mask).qpState = none := if_neg hmask
  dsimp only [stateStep] at h
  split at h
  · cases h
    rw [hnone]
    exact (setAttrs_states c _).trans (by rw [hnone]; rfl)
  · cases h

theorem modify_move (h : stateStep lim c (.modify attr mask) = some c') (hmask : .state ∈ mask) :
    rxeQpChkAttr lim c.qp attr mask ∧
      c'.states = (attr.qpState, statesAfter c.states.2 attr.qpState) := by
  have hsome : (attr.masked mask).qpState = some attr.qpState := if_pos hmask
  obtain ⟨hchk, ⟨⟩⟩ := Option.ite_none_right_eq_some.1 h
  refine ⟨hchk, ?_⟩
  rw [hsome, writeStates_states, setAttrs_states, hsome]
  rfl

/-- The caller may say which state the QP is in only where it asks for RTS. -/
theorem qpStateTable_curState (cur new : IbQpState) (type : QpType) (entry : StateEntry)
    (h : qpStateTable cur new = some entry)
    (hmask : .curState ∈ entry.reqParam type ++ entry.optParam type ++ [AttrMask.state]) :
    new = .rts := by
  cases cur <;> cases new <;> first
    | rfl
    | cases h; done
    | (cases h; cases type <;> simp at hmask)

theorem ibModifyQpIsOk_entry {cur new : IbQpState} {type : QpType}
    (h : ibModifyQpIsOk cur new type mask) :
    ∃ entry, qpStateTable cur new = some entry ∧
      ∀ m ∈ mask, m ∈ entry.reqParam type ++ entry.optParam type ++ [AttrMask.state] := by
  unfold ibModifyQpIsOk at h
  split at h
  · cases h
  · split at h
    · cases h
    · next entry hentry =>
      refine ⟨entry, hentry, fun m hm => ?_⟩
      have hall := List.all_eq_true.1 (Bool.and_eq_true_iff.1 h).2 m hm
      simpa using hall

theorem rxeQpChkAttr_from (h : rxeQpChkAttr lim c.qp attr mask) (hmask : .state ∈ mask)
    (hrts : attr.qpState ≠ .rts) : (qpStateTable c.qp.attr.qpState attr.qpState).isSome := by
  have hok : ibModifyQpIsOk (curState c.qp attr mask) (newState c.qp attr mask) c.qp.type mask := by
    unfold rxeQpChkAttr at h
    simp only [Bool.and_eq_true] at h
    exact h.1.1.1.1.1.1.1.1
  have hnew : newState c.qp attr mask = attr.qpState := if_pos hmask
  rw [hnew] at hok
  obtain ⟨entry, hentry, hall⟩ := ibModifyQpIsOk_entry hok
  -- only in a move to RTS may the caller name the state the QP is in
  have hcur : curState c.qp attr mask = c.qp.attr.qpState :=
    if_neg fun hm => hrts (qpStateTable_curState _ _ _ entry hentry (hall _ hm))
  rw [hcur] at hentry
  rw [hentry]
  rfl

/-- The states that go together are kept by a move the table allows, and to RTS from a QP that
has been in RTR. -/
theorem statesAfter_settled (s : IbQpState × QpState × QpState) (hs : s ∈ settledStates)
    (state : IbQpState) (hrts : state = .rts → s.1 ∉ [.reset, .init, .err])
    (hfrom : state ≠ .rts → (qpStateTable s.1 state).isSome) :
    (state, statesAfter s.2 state) ∈ settledStates ∧
      (s.2.1 = .error → (statesAfter s.2 state).1 ≠ .error → state = .reset) ∧
      (s.2.2 = .error → (statesAfter s.2 state).2 ≠ .error → state = .reset) := by
  unfold settledStates at hs
  simp only [List.mem_cons, List.not_mem_nil, or_false] at hs
  rcases hs with rfl | rfl | rfl | rfl | rfl | rfl | rfl <;> cases state <;>
    simp [qpStateTable] at hrts hfrom <;> decide

theorem settledStates_coherent (h : c.states ∈ settledStates) : Coherent c := by
  unfold settledStates Ctx.states at h
  simp only [List.mem_cons, Prod.mk.injEq, List.not_mem_nil, or_false] at h
  rcases h with h | h | h | h | h | h | h <;> obtain ⟨hattr, hreq, hresp⟩ := h <;>
    constructor <;> simp [hattr, hreq, hresp]

theorem leavesByReset_of_states (a : StateAct) (h : c'.states = c.states) :
    LeavesByReset c a c' := by
  have hreq : c'.qp.req.state = c.qp.req.state := congrArg (·.2.1) h
  have hresp : c'.qp.resp.state = c.qp.resp.state := congrArg (·.2.2) h
  rintro (⟨herr, hno⟩ | ⟨herr, hno⟩)
  · exact absurd (hreq.trans herr) hno
  · exact absurd (hresp.trans herr) hno

theorem settledStates_step {a : StateAct} (hs : c.states ∈ settledStates) (hok : StateOk c a)
    (h : stateStep lim c a = some c') : c'.states ∈ settledStates ∧ LeavesByReset c a c' := by
  cases a with
  | modify attr mask =>
    by_cases hmask : .state ∈ mask
    · obtain ⟨hchk, hc'⟩ := modify_move h hmask
      obtain ⟨hin, hreq, hresp⟩ := statesAfter_settled c.states hs attr.qpState
        (fun hrts => hok ⟨hmask, hrts⟩) (rxeQpChkAttr_from hchk hmask)
      refine ⟨hc' ▸ hin, ?_⟩
      have hreq' : c'.qp.req.state = _ := congrArg (·.2.1) hc'
      have hresp' : c'.qp.resp.state = _ := congrArg (·.2.2) hc'
      rintro (⟨herr, hno⟩ | ⟨herr, hno⟩)
      · exact ⟨hmask, hreq herr (hreq' ▸ hno)⟩
      · exact ⟨hmask, hresp herr (hresp' ▸ hno)⟩
    · have hc' := modify_keep h hmask
      exact ⟨hc' ▸ hs, leavesByReset_of_states _ hc'⟩
  | error =>
    cases h
    have hattr : c.qp.attr.qpState = .err := hok
    refine ⟨?_, fun h => ?_⟩
    · show (c.qp.attr.qpState, QpState.error, QpState.error) ∈ settledStates
      rw [hattr]
      decide
    · rcases h with ⟨-, hno⟩ | ⟨-, hno⟩ <;> exact absurd rfl hno
  | drained =>
    obtain ⟨hdrain, ⟨⟩⟩ := Option.ite_none_right_eq_some.1 h
    have hsqd : c.states = (.sqd, .drain, .ready) := by
      unfold settledStates at hs
      simp only [List.mem_cons, List.not_mem_nil, or_false] at hs
      rcases hs with hs | hs | hs | hs | hs | hs | hs <;> first
        | exact hs
        | exact absurd ((congrArg (·.2.1) hs).symm.trans hdrain) QpState.noConfusion
    obtain ⟨hattr, hreq, hresp⟩ : c.qp.attr.qpState = .sqd ∧ c.qp.req.state = .drain ∧
        c.qp.resp.state = .ready :=
      ⟨congrArg Prod.fst hsqd, congrArg (·.2.1) hsqd, congrArg (·.2.2) hsqd⟩
    refine ⟨?_, fun h => ?_⟩
    · show (c.qp.attr.qpState, QpState.drained, c.qp.resp.state) ∈ settledStates
      rw [hattr, hresp]
      decide
    · rcases h with ⟨herr, -⟩ | ⟨herr, -⟩
      · rw [hreq] at herr
        cases herr
      · rw [hresp] at herr
        cases herr
  | other c₁ =>
    obtain ⟨hsame, ⟨⟩⟩ := Option.ite_none_right_eq_some.1 h
    exact ⟨hsame ▸ hs, leavesByReset_of_states _ hsame⟩

theorem stateOk_of_coherent {a : StateAct} (hs : c.states ∈ settledStates)
    (h : stateStep lim c a = some c') (hco : Coherent c') : StateOk c a := by
  cases a with
  | error =>
    cases h
    exact hco.err.2 ⟨rfl, rfl⟩
  | modify attr mask =>
    rintro ⟨hmask, hrts⟩ hin
    have hc' := (modify_move h hmask).2
    rw [hrts] at hc'
    have hready : c.qp.resp.state = .ready := by
      rw [← (hco.rts (congrArg Prod.fst hc')).2]
      exact (congrArg (·.2.2) hc').symm
    have hresp : ∀ s ∈ settledStates, s.1 ∈ [IbQpState.reset, .init, .err] → s.2.2 ≠ .ready := by
      decide
    exact hresp c.states hs hin hready
  | drained | other _ => exact fun hno => hno.elim

end Step

open Trace in
/-- The state variables of a QP agree along a run, and the error state is left through RESET
only, exactly if every error is found in a QP that is in ERR already and no accepted call moves
a QP from RESET, INIT or ERR to RTS. -/
theorem qp_states_coherent_iff (lim : DevLimits) (run : Run (stateStep lim))
    (hnew : (run.state 0).states = (.reset, .reset, .reset)) :
    (∀ t, Coherent (run.state t) ∧
        ∀ a, run.act t = some a → LeavesByReset (run.state t) a (run.state (t + 1))) ↔
      ∀ t a, run.act t = some a → StateOk (run.state t) a := by
  have hstart : (run.state 0).states ∈ settledStates := by
    rw [hnew]
    decide
  -- the states stay settled as long as the steps meet the condition
  have hsettled : ∀ t, (∀ u < t, ∀ a, run.act u = some a → StateOk (run.state u) a) →
      (run.state t).states ∈ settledStates :=
    run.inv_until (I := fun c => c.states ∈ settledStates) hstart fun _ _ _ hs hok hstep =>
      (settledStates_step hs hok hstep).1
  constructor
  · intro hco t
    induction t using Nat.strong_induction_on with
    | _ t ih =>
      intro a hact
      exact stateOk_of_coherent (hsettled t ih) (run.taken t a hact) (hco (t + 1)).1
  · intro hok t
    have ht := hsettled t fun u _ => hok u
    refine ⟨settledStates_coherent ht, fun a hact => ?_⟩
    exact (settledStates_step ht (hok t a hact) (run.taken t a hact)).2

/-- An RC QP as it is created. -/
def createdQp : Ctx := { qp := { type := .rc, sq := ⟨[], []⟩, rq := ⟨[], []⟩ } }

/-- The calls that bring an RC QP to RTS. -/
def toRts : List StateAct :=
  [.modify { qpState := .init } [.state, .pkeyIndex, .port, .accessFlags],
    .modify { qpState := .rtr }
      [.state, .av, .pathMtu, .destQpn, .rqPsn, .maxDestRdAtomic, .minRnrTimer],
    .modify { qpState := .rts }
      [.state, .timeout, .retryCnt, .rnrRetry, .sqPsn, .maxQpRdAtomic]]

/-- A created QP is moved to INIT, and then its requester is called. -/
theorem qpRun_toInit : ∃ mask c r,
    rxeModifyQp {} createdQp { qpState := .init } mask = some (true, c) ∧
      rxeRequester c = some r ∧ StateRun {} [({ qpState := .init }, mask)] createdQp r.2 := by
  obtain ⟨c, r, hcall, htask⟩ : ∃ c r, rxeModifyQp {} createdQp { qpState := .init }
      [.state, .pkeyIndex, .port, .accessFlags] = some (true, c) ∧ rxeRequester c = some r :=
    ⟨_, _, rfl, rfl⟩
  have hrun := QpRun.requester (.modify .start hcall) htask
  exact ⟨_, c, r, hcall, htask, qpRun_refines {} createdQp _ _ hrun⟩

open Trace in
/-- On the way to RTS and back to RESET the variables agree. -/
theorem qp_states_coherent_toRts : Coherent ((Run.ofActs (stateStep {}) createdQp
    (toRts ++ [StateAct.modify { qpState := .reset } [.state]])).state 4) := by
  have hok : ∀ t a, (Run.ofActs (stateStep {}) createdQp
      (toRts ++ [StateAct.modify { qpState := .reset } [.state]])).act t = some a →
      StateOk ((Run.ofActs (stateStep {}) createdQp
        (toRts ++ [StateAct.modify { qpState := .reset } [.state]])).state t) a := by
    intro t a hact
    match t with
    | 0 | 1 | 3 =>
      cases hact
      exact fun h => nomatch h.2
    | 2 =>
      cases hact
      exact fun _ => by decide
    | t + 4 => cases hact
  exact ((qp_states_coherent_iff {} _ rfl).2 hok 4).1

/-- A task finds an error while the QP is in RTS; the next call that asks for RTS starts the
requester again. -/
theorem qp_states_incoherent :
    ((toRts ++ [StateAct.error]).foldlM (stateStep {}) createdQp).map Ctx.states =
        some (.rts, .error, .error) ∧
      ((toRts ++ [StateAct.error, .modify { qpState := .rts } [.state]]).foldlM (stateStep {})
        createdQp).map Ctx.states = some (.rts, .ready, .error) :=
  ⟨rfl, rfl⟩

end Rxe
