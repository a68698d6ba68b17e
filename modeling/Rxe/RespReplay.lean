/-
Replaying a duplicate RDMA READ.

A duplicate READ_REQUEST that `find_resource` finds is answered again: the resource is
rewound (`duplicate_request`) and `read_reply` sends the responses, one per call.  The
last response sets `resp.psn` to the PSN after the read, whatever `resp.psn` was:

* `replayRun_psn` — a finished replay leaves `replayEnd`, computed before it starts;
* `replay_keeps_psn_iff` — `resp.psn` does not move backwards exactly when the request is
  dropped or its responses reach up to the expected PSN;
* `replay_repeats_send` — a run in which a SEND is executed twice because the READ
  before it was retried.
-/
import Rxe.Framing
import Rxe.RespOrder

namespace Rxe

variable {c c' : Ctx} {dup p : Pkt} {r : RespRes}

/-- Number of responses to a read of `len` bytes. -/
def numResponses (mtu len : ℕ) : ℕ := max 1 ((len + mtu - 1) / mtu)

theorem numResponses_of_le {mtu len : ℕ} (hmtu : 0 < mtu) (h : len ≤ mtu) :
    numResponses mtu len = 1 := Framing.count_of_le hmtu h

theorem numResponses_of_lt {mtu len : ℕ} (hmtu : 0 < mtu) (h : mtu < len) :
    numResponses mtu len = numResponses mtu (len - mtu) + 1 := Framing.count_of_lt hmtu h

/-- A duplicate read the responder does not answer. -/
def dropped (qp : Qp) (pkt : Pkt) : Bool :=
  match findResource qp pkt.psn with
  | none => true
  | some i =>
    match qp.resp.resources[i]? with
    | none => true
    | some res => !replayOk res pkt

/-- The expected PSN after a replay. -/
def replayEnd (qp : Qp) (pkt : Pkt) : ℕ :=
  if dropped qp pkt then qp.resp.psn else psnMask (pkt.psn + numResponses qp.mtu pkt.reth.len)

/-- A replay is under way: the responses left lead to `target`. -/
def Replaying (target psn : ℕ) (q : Qp) : Prop :=
  q.resp.psn = psn ∧ ∃ i r, q.resp.res = some i ∧ q.resp.resources[i]? = some r ∧
    r.resid < 2 ^ 32 ∧ psnMask (r.curPsn + numResponses q.mtu r.resid) = target

/-- The replay is over. -/
def Replayed (target : ℕ) (q : Qp) : Prop :=
  q.resp.res = none ∧ q.resp.psn = target

/-- A duplicate READ_REQUEST. -/
structure DupRead (pkt : Pkt) (psn : ℕ) : Prop where
  opcode : pkt.opcode = .rcRdmaReadRequest
  old : psnCompare pkt.psn psn < 0
  len_lt : pkt.reth.len < 2 ^ 32

/-- The duplicate `dup` is still to be looked up. -/
def Pending (dup : Pkt) (target psn : ℕ) (q : Qp) : Prop :=
  q.resp.res = none ∧ q.resp.psn = psn ∧ DupRead dup psn ∧ replayEnd q dup = target

/-- The phase of the replay in each state of the responder. -/
def replayPhase (dup : Pkt) (target psn : ℕ) (state : RespState) (pkt : Option Pkt) (q : Qp) :
    Prop :=
  match state with
  | .getReq =>
    Replaying target psn q ∨
      (Pending dup target psn q ∧ q.reqPkts.head? = some dup ∧ q.resp.state ≠ .error)
  | .chkPsn | .duplicateRequest => Pending dup target psn q ∧ pkt = some dup
  | .readReply | .errRnr | .exit => Replaying target psn q
  | .chkResource | .complete => Replaying target psn q ∧ q.resp.state = .error
  | .cleanup | .done | .error | .errCqOverflow => Replaying target psn q ∨ Replayed target q
  | _ => False

/-- Invariant of the responder loop during a replay, on the view of its context. -/
structure ReplayInv (dup : Pkt) (target psn : ℕ) (state : RespState) (pkt : Option Pkt)
    (q : Qp) : Prop where
  rc : q.type = .rc
  valid : q.valid
  mtu : 0 < q.mtu
  mtu_lt : q.mtu < 2 ^ 32
  alive : q.resp.state ≠ .reset
  phase : replayPhase dup target psn state pkt q

/-! ### One step of `read_reply` -/

variable {target psn i : ℕ}

theorem readReply_replaying (pkt : Pkt) (h : Replaying target psn (respView c).qp)
    (hmtu : 0 < c.qp.mtu) (hlt' : c.qp.mtu < 2 ^ 32) :
    ((readReply c pkt).1 = .errRnr ∧ Replaying target psn (respView (readReply c pkt).2).qp) ∨
    ((readReply c pkt).1 = .done ∧ Replaying target psn (respView (readReply c pkt).2).qp) ∨
    ((readReply c pkt).1 = .cleanup ∧ Replayed target (respView (readReply c pkt).2).qp) := by
  obtain ⟨hpsn, i, r, hres, hr, hlt, htarget⟩ := h
  have hres : c.qp.resp.res = some i := hres
  have hr : c.qp.resp.resources[i]? = some r := hr
  have hpsn : c.qp.resp.psn = psn := hpsn
  have htarget : psnMask (r.curPsn + numResponses c.qp.mtu r.resid) = target := htarget
  have hreply : readReply c pkt = readReplyRes c pkt i r := by
    simp [readReply, hres, hr]
  rw [hreply, readReplyRes]
  dsimp only
  have hget : ∀ f : RespRes → RespRes, (c.qp.resp.resources.modify i f)[i]? = some (f r) := by
    intro f
    simp [hr]
  split
  · next c' hprep =>
    left
    have hview : respView c' = respView (setRes c i RespRes.started) := by
      rcases prepareAckPacket_none hprep with h | ⟨-, h⟩ <;> rw [h]
      · exact takeSkb_view _
      · rw [respView_emit _ rfl, takeSkb_view]
    rw [hview, setRes_view]
    exact ⟨rfl, hpsn, i, _, hres, hget _, hlt, htarget⟩
  · next ack c' hprep =>
    right
    obtain ⟨rfl, -, -, -, -, hnonneg⟩ := prepareAckPacket_some hprep
    -- the response was built, so neither size was negative as an `int`
    have hn : (min (s32 r.resid) (s32 c.qp.mtu)).toNat = min r.resid c.qp.mtu := by
      obtain ⟨hresid, hmtu'⟩ := le_min_iff.1 hnonneg
      rw [s32_of_nonneg hresid hlt, s32_of_nonneg hmtu' hlt']
      omega
    rw [hn]
    split
    · next hmore =>
      left
      refine ⟨rfl, ?_⟩
      rw [respView_emit_resp _ rfl, setRes_view, copyFrom_view, takeSkb_view, setRes_view]
      have hn' : min r.resid c.qp.mtu = c.qp.mtu := by omega
      have hget' : ((c.qp.resp.resources.modify i RespRes.started).modify i
          (RespRes.advance (min r.resid c.qp.mtu)))[i]? =
          some (r.started.advance (min r.resid c.qp.mtu)) := by
        simp [hr]
      refine ⟨hpsn, i, _, hres, hget', ?_, ?_⟩
      · show r.resid - min r.resid c.qp.mtu < 2 ^ 32
        omega
      · show psnMask (psnMask (r.curPsn + 1) + numResponses c.qp.mtu (r.resid - _)) = target
        have hstep := numResponses_of_lt hmtu (show c.qp.mtu < r.resid by omega)
        rw [hn', psnMask_add, ← htarget, hstep, Nat.add_assoc, Nat.add_comm 1]
    · next hlast =>
      right
      refine ⟨rfl, rfl, ?_⟩
      show psnMask (r.curPsn + 1) = target
      rw [← htarget, numResponses_of_le hmtu (by omega)]

/-! ### One pass of the loop -/

section Step

variable {dup : Pkt} {target psn : ℕ} {pkt : Option Pkt} {c : Ctx}

theorem getReq_replay (h : ReplayInv dup target psn .getReq pkt (respView c).qp) :
    ReplayInv dup target psn (getReq c pkt).1 (getReq c pkt).2.1
      (respView (getReq c pkt).2.2).qp := by
  have hphase : Replaying target psn (respView c).qp ∨ (Pending dup target psn (respView c).qp ∧
      c.qp.reqPkts.head? = some dup ∧ c.qp.resp.state ≠ .error) := h.phase
  unfold getReq
  split
  · next herr =>
    -- in the error state the duplicate is not waiting any more
    have hre : Replaying target psn (respView c).qp :=
      hphase.resolve_right fun hp => hp.2.2 herr
    split
    · exact { h with phase := ⟨hre, herr⟩ }
    · exact { h with phase := Or.inl hre }
  · split
    · next hq =>
      have hre : Replaying target psn (respView c).qp := by
        refine hphase.resolve_right fun hp => ?_
        rw [hq] at hp
        cases hp.2.1
      exact { h with phase := hre }
    · next p pkts hq =>
      rcases hphase with hre | ⟨hpend, hhead, -⟩
      · obtain ⟨i, hres⟩ : ∃ i, c.qp.resp.res = some i := by
          obtain ⟨-, i, -, hres, -⟩ := hre
          exact ⟨i, hres⟩
        rw [hres]
        exact { h with phase := hre }
      · have hres : c.qp.resp.res = none := hpend.1
        rw [hq] at hhead
        rw [hres]
        exact { h with phase := ⟨hpend, hhead⟩ }

theorem respCheckPsn_replay (h : ReplayInv dup target psn .chkPsn (some dup) (respView c).qp) :
    ReplayInv dup target psn (respCheckPsn c dup).1 (some dup)
      (respView (respCheckPsn c dup).2).qp := by
  have hrc : c.qp.type = .rc := h.rc
  obtain ⟨hpend, -⟩ : Pending dup target psn (respView c).qp ∧ some dup = some dup := h.phase
  have hpsn : c.qp.resp.psn = psn := hpend.2.1
  have hold := hpend.2.2.1.old
  unfold respCheckPsn
  rw [hrc, hpsn]
  dsimp only
  rw [if_neg (by omega), if_pos hold]
  exact { h with phase := ⟨hpend, rfl⟩ }

theorem duplicateRequest_replay
    (h : ReplayInv dup target psn .duplicateRequest (some dup) (respView c).qp) :
    ReplayInv dup target psn (duplicateRequest c dup).1 (some dup)
      (respView (duplicateRequest c dup).2).qp := by
  obtain ⟨hpend, -⟩ : Pending dup target psn (respView c).qp ∧ some dup = some dup := h.phase
  obtain ⟨hres, hpsn, hdup, hend⟩ := hpend
  have hmask : duplicateRequest c dup = duplicateRead c dup := by
    simp [duplicateRequest, Pkt.mask, hdup.opcode, rxeOpcodeMask]
  have hend : replayEnd c.qp dup = target := hend
  have hpsn : c.qp.resp.psn = psn := hpsn
  rw [hmask, duplicateRead]
  -- a dropped request keeps the expected PSN
  have hdrop : dropped c.qp dup = true → Replayed target (respView c).qp := by
    intro hd
    refine ⟨hres, ?_⟩
    rw [replayEnd, if_pos hd] at hend
    exact hend
  rw [dropped] at hdrop
  split
  · next hfind =>
    rw [hfind] at hdrop
    exact { h with phase := Or.inr (hdrop rfl) }
  · next i hfind =>
    rw [hfind] at hdrop
    dsimp only at hdrop
    split
    · next hget =>
      rw [hget] at hdrop
      exact { h with phase := Or.inr (hdrop rfl) }
    · next r hget =>
      rw [hget] at hdrop
      dsimp only at hdrop
      split
      · next hok =>
        have hnot : dropped c.qp dup = false := by
          simp [dropped, hfind, hget, hok]
        have hget' : (c.qp.resp.resources.modify i (replayRes dup))[i]? =
            some (replayRes dup r) := by
          simp [hget]
        rw [replayEnd, hnot, if_neg Bool.false_ne_true] at hend
        exact { h with phase := ⟨hpsn, i, _, rfl, hget', hdup.len_lt, hend⟩ }
      · next hok =>
        rw [Bool.not_eq_true] at hok
        exact { h with phase := Or.inr (hdrop (by rw [hok]; rfl)) }

theorem readReply_replay
    (h : ReplayInv dup target psn .readReply (some p) (respView c).qp) :
    ReplayInv dup target psn (readReply c p).1 (some p) (respView (readReply c p).2).qp := by
  have hre : Replaying target psn (respView c).qp := h.phase
  have hnext := readReply_replaying p hre h.mtu h.mtu_lt
  obtain ⟨htype, hvalid, hmtu, hstate⟩ : (readReply c p).2.qp.type = c.qp.type ∧
      (readReply c p).2.qp.valid = c.qp.valid ∧ (readReply c p).2.qp.mtu = c.qp.mtu ∧
      (readReply c p).2.qp.resp.state = c.qp.resp.state := by
    obtain ⟨-, _, _, _, _, _, _, _, _, -, hc⟩ := readReply_frame c p
    rw [hc]
    exact ⟨rfl, rfl, rfl, rfl⟩
  refine ⟨htype.trans h.rc, hvalid.trans h.valid, lt_of_lt_of_eq h.mtu hmtu.symm,
    hmtu.trans_lt h.mtu_lt, fun hr => h.alive (hstate ▸ hr), ?_⟩
  rcases hnext with ⟨hs, hphase⟩ | ⟨hs, hphase⟩ | ⟨hs, hphase⟩
  · rw [hs]
    exact hphase
  · rw [hs]
    exact Or.inl hphase
  · rw [hs]
    exact Or.inr hphase

theorem respErrRnr_replay
    (h : ReplayInv dup target psn .errRnr (some p) (respView c).qp) :
    ReplayInv dup target psn .cleanup (some p) (respView (respErrRnr c p)).qp := by
  have hqp : (respView (respErrRnr c p)).qp = (respView c).qp := by
    rw [respErrRnr, if_pos (show c.qp.type = .rc from h.rc)]
    rcases sendAck_view c p (aethRnrNak ||| c.qp.attr.minRnrTimer % 32) p.psn with
      hv | ⟨ack, -, -, -, hv⟩
    · rw [hv]
    · rw [hv]
      rfl
  rw [hqp]
  exact { h with phase := Or.inl h.phase }

theorem checkResource_replay (h : ReplayInv dup target psn .chkResource pkt (respView c).qp) :
    ReplayInv dup target psn (checkResource c pkt).1 pkt (respView (checkResource c pkt).2).qp := by
  obtain ⟨hre, herr⟩ : Replaying target psn (respView c).qp ∧ c.qp.resp.state = .error := h.phase
  rw [checkResource_view]
  rcases checkResource_state_error pkt herr with hs | hs
  · rw [hs]
    exact { h with phase := ⟨hre, herr⟩ }
  · rw [hs]
    exact { h with phase := hre }

theorem respDoComplete_replay (h : ReplayInv dup target psn .complete pkt (respView c).qp) :
    ReplayInv dup target psn (respDoComplete c pkt).1 pkt
      (respView (respDoComplete c pkt).2).qp := by
  obtain ⟨hre, herr⟩ : Replaying target psn (respView c).qp ∧ c.qp.resp.state = .error := h.phase
  have hv := respDoComplete_view c pkt
  have hstate : (respDoComplete c pkt).2.qp.resp.state = c.qp.resp.state :=
    congrArg (·.qp.resp.state) hv
  rw [hv]
  rcases respDoComplete_state c pkt with hs | hs | hs
  · rw [hs]
    exact { h with phase := Or.inl hre }
  · rw [hs]
    exact { h with phase := Or.inl hre }
  · rw [hs, respAfterCqe, if_pos (hstate.trans herr)]
    exact { h with phase := ⟨hre, herr⟩ }

end Step

/-- Invariant of a replay between two calls of the responder. -/
structure BetweenInv (target psn : ℕ) (q : Qp) : Prop where
  rc : q.type = .rc
  valid : q.valid
  mtu : 0 < q.mtu
  mtu_lt : q.mtu < 2 ^ 32
  alive : q.resp.state ≠ .reset
  phase : Replaying target psn q ∨ Replayed target q

theorem BetweenInv.qpError (h : BetweenInv target psn (respView c).qp) :
    BetweenInv target psn (respView (rxeQpError c)).qp := by
  rw [rxeQpError_view (show c.qp.type = .rc from h.rc)]
  exact ⟨h.rc, h.valid, h.mtu, h.mtu_lt, by simp [toErrorState], h.phase⟩

theorem replayRule (dup : Pkt) (target psn : ℕ) : PassRule (fun (_ : Unit) _ => ())
    (fun _ state pkt c => ReplayInv dup target psn state pkt (respView c).qp)
    (fun _ state pkt c => ReplayInv dup target psn state pkt (respView c).qp)
    (fun _ c => BetweenInv target psn (respView c).qp) where
  getReq _ _ _ h := getReq_replay h
  chkPsn _ p _ h := by
    obtain rfl : p = dup := Option.some.inj h.phase.2
    exact respCheckPsn_replay h
  -- while a replay is under way new requests are not looked at
  chkOpSeq _ _ _ h := h.phase.elim
  chkOpValid _ _ _ h := h.phase.elim
  chkResource _ _ _ h := checkResource_replay h
  chkLength _ _ _ h := h.phase.elim
  chkRkey _ _ _ h := h.phase.elim
  execute _ _ _ h := h.phase.elim
  complete _ _ _ h := respDoComplete_replay h
  readReply _ _ _ h := readReply_replay h
  acknowledge _ _ _ h := h.phase.elim
  cleanup _ _ _ h := { h with }
  duplicateRequest _ p _ h := by
    obtain rfl : p = dup := Option.some.inj h.phase.2
    exact duplicateRequest_replay h
  errPsn _ _ _ h := h.phase.elim
  errAc _ state _ _ _ _ hclass h := by
    have hphase := h.phase
    cases state <;> first | exact hphase.elim | cases hclass
  errD1e _ _ _ h := h.phase.elim
  errRnr _ _ _ h := respErrRnr_replay h
  errRkey _ _ _ h := h.phase.elim
  errLength _ _ _ h := h.phase.elim
  toError _ state _ _ hstate h := by
    have hphase := h.phase
    rcases hstate with rfl | ⟨-, rfl | rfl⟩
    · exact { h with phase := hphase }
    · exact { h with phase := hphase }
    · exact { h with phase := Or.inl hphase }
  leave _ state pkt _ hstate h := by
    have hphase := h.phase
    refine ⟨h.rc, h.valid, h.mtu, h.mtu_lt, h.alive, ?_⟩
    rcases hstate with ⟨-, rfl | rfl⟩ | ⟨hneeds, rfl⟩
    · exact hphase
    · exact Or.inl hphase
    · cases state <;> first
        | exact absurd hneeds Bool.false_ne_true
        | exact Or.inl hphase
        | exact hphase.elim
        | (obtain ⟨-, hnone⟩ := hphase; cases hnone)
  error _ _ c h := BetweenInv.qpError (c := { c with qp.resp.gotoError := false })
    ⟨h.rc, h.valid, h.mtu, h.mtu_lt, h.alive, h.phase⟩
  reset _ _ _ h := h.phase.elim

/-! ### Whole replays -/

/-- What may happen between two calls of the responder. -/
def RespOp.quiet : RespOp → Prop
  | .task _ => False
  | _ => True

/-- A replay from its first call on to the call that ends it. -/
inductive ReplayRun : Ctx → Ctx → Prop
  | last {c c' : Ctx} {fuel : ℕ} {b : Bool} (hcall : rxeResponder fuel c = some (b, c'))
      (hres : c'.qp.resp.res = none) : ReplayRun c c'
  | more {c c₁ c₂ c' : Ctx} {fuel : ℕ} {b : Bool} {ops : List RespOp}
      (hcall : rxeResponder fuel c = some (b, c₁)) (hres : c₁.qp.resp.res ≠ none)
      (hops : ∀ op ∈ ops, op.quiet) (hidle : respRun c₁ ops = some c₂) (hrest : ReplayRun c₂ c') :
      ReplayRun c c'

theorem rxeResponder_replay {fuel : ℕ} {r : Bool × Ctx}
    (h : ReplayInv dup target psn .getReq none (respView c).qp)
    (hr : rxeResponder fuel c = some r) :
    BetweenInv target psn (respView r.2).qp := by
  refine (replayRule dup target psn).call ?_ hr
  have hvalid : c.qp.valid = true := h.valid
  unfold respEnter
  rw [if_neg (by simp [hvalid]), if_neg (show ¬ c.qp.resp.state = .reset from h.alive)]
  exact { h with }

theorem respOp_quiet {op : RespOp} (h : ReplayInv dup target psn .exit none (respView c).qp)
    (hop : op.quiet) (hc : respOp c op = some c') :
    ReplayInv dup target psn .exit none (respView c').qp := by
  cases op with
  -- `.exit` stands for the time between two calls
  | task fuel => exact hop.elim
  | recv pkt =>
    cases hc
    exact { h with }
  | postRecv wrs =>
    cases hc
    unfold rxePostRecv
    split
    · exact h
    · exact { h with }
  | error =>
    cases hc
    rw [rxeQpError_view (show c.qp.type = .rc from h.rc)]
    exact ⟨h.rc, h.valid, h.mtu, h.mtu_lt, by simp [toErrorState], h.phase⟩
  | env dev skb cq =>
    cases hc
    exact { h with }

theorem replayRun_target (hrun : ReplayRun c c')
    (h : ReplayInv dup target psn .getReq none (respView c).qp) : c'.qp.resp.psn = target := by
  induction hrun with
  | last hcall hres =>
    rcases (rxeResponder_replay h hcall).phase with ⟨-, i, r, hsome, -⟩ | hdone
    · cases hsome.symm.trans hres
    · exact hdone.2
  | more hcall hres hops hidle hrest ih =>
    have hcalled := rxeResponder_replay h hcall
    have hwait : ReplayInv dup target psn .exit none _ := respRun_inv (fun _ _ _ => respOp_quiet)
      ⟨hcalled.rc, hcalled.valid, hcalled.mtu, hcalled.mtu_lt, hcalled.alive,
        hcalled.phase.resolve_right fun hdone => hres hdone.1⟩ hops hidle
    exact ih { hwait with phase := Or.inl hwait.phase }

/-- The state in which a duplicate READ_REQUEST is at the head of the queue. -/
structure ReplayStart (c : Ctx) (dup : Pkt) : Prop where
  rc : c.qp.type = .rc
  valid : c.qp.valid
  ready : c.qp.resp.state = .ready
  mtu : 0 < c.qp.mtu
  mtu_lt : c.qp.mtu < 2 ^ 32
  noRes : c.qp.resp.res = none
  head : c.qp.reqPkts.head? = some dup
  dup : DupRead dup c.qp.resp.psn

/-- A replay that ends leaves `replayEnd`. -/
theorem replayRun_psn (h : ReplayStart c dup) (hrun : ReplayRun c c') :
    c'.qp.resp.psn = replayEnd c.qp dup := by
  have hstart : ReplayInv dup (replayEnd c.qp dup) c.qp.resp.psn .getReq none (respView c).qp := by
    refine ⟨h.rc, h.valid, h.mtu, h.mtu_lt, ?_, Or.inr ⟨⟨h.noRes, rfl, h.dup, rfl⟩, h.head, ?_⟩⟩
    · show c.qp.resp.state ≠ .reset
      simp [h.ready]
    · show c.qp.resp.state ≠ .error
      simp [h.ready]
  exact replayRun_target hrun hstart

/-! ### A replay comes to its end -/

/-- A responder that works normally, with packets to work on, allocations that succeed and an
MTU that is positive as the `int` it is. -/
structure Working (c : Ctx) : Prop where
  valid : c.qp.valid
  ready : c.qp.resp.state = .ready
  noError : c.qp.resp.gotoError = false
  alloc : c.skb = []
  mtu : 0 < c.qp.mtu
  mtu_lt : c.qp.mtu < 2 ^ 31

/-- The resource after a response of `n` bytes. -/
def replied (c : Ctx) (i n : ℕ) (r : RespRes) (ack : Pkt) : Ctx :=
  (setRes (copyFrom (setRes c i RespRes.started) r) i (RespRes.advance n)).emit (.sendResp ack)

theorem readReplyRes_room (p : Pkt) (i : ℕ) (hroom : c.skbRoom)
    (hsmall : r.resid < 2 ^ 31) (hmtu : c.qp.mtu < 2 ^ 31) :
    ∃ skb ack, (c.skb = [] → skb = []) ∧ ack.opcode = readRespOpcode r.state (r.resid ≤ c.qp.mtu) ∧
      ack.psn = psnMask r.curPsn ∧ ack.payload = readData c r (min r.resid c.qp.mtu) ∧
      readReplyRes c p i r =
        if min r.resid c.qp.mtu < r.resid then
          (.done, replied { c with skb } i (min r.resid c.qp.mtu) r ack)
        else (.cleanup, finishRead (replied { c with skb } i (min r.resid c.qp.mtu) r ack)
          (psnMask (r.curPsn + 1))) := by
  have hint : s32 r.resid = r.resid := s32_of_lt hsmall
  have hint' : s32 c.qp.mtu = c.qp.mtu := s32_of_lt hmtu
  -- the sizes are `int`s in the driver; here they are not negative
  have hn : (min (s32 r.resid) (s32 c.qp.mtu)).toNat = min r.resid c.qp.mtu := by
    omega
  have hnonneg : 0 ≤ min (s32 r.resid) (s32 c.qp.mtu) := by
    omega
  have htake : ∃ skb, (c.skb = [] → skb = []) ∧ (setRes c i RespRes.started).takeSkb =
      (true, setRes { c with skb } i RespRes.started) := by
    unfold Ctx.takeSkb
    cases hskb : c.skb with
    | nil =>
      rw [show (setRes c i RespRes.started).skb = [] from hskb]
      have hsame : ({ c with skb := [] } : Ctx) = c := by rw [← hskb]
      exact ⟨[], fun _ => rfl, by rw [hsame]⟩
    | cons b bs =>
      rw [show (setRes c i RespRes.started).skb = b :: bs from hskb]
      cases b with
      | false => exact absurd (congrArg List.head? hskb) hroom
      | true => exact ⟨bs, nofun, rfl⟩
  obtain ⟨skb, hnil, htake⟩ := htake
  have hprep := prepareAckPacket_room p (readRespOpcode r.state (r.resid ≤ c.qp.mtu)) r.curPsn
    aethAckUnlimited htake hnonneg
  unfold readReplyRes
  dsimp only
  rw [hprep, hn]
  exact ⟨skb, _, hnil, rfl, rfl, rfl, rfl⟩

theorem step_done (pkt : Option Pkt) (h : c.qp.resp.gotoError = false) :
    respStep ⟨.done, pkt, c⟩ = .inr (true, c) := by
  show (if c.qp.resp.gotoError then _ else _) = _
  rw [h]
  rfl

theorem step_cleanup (c : Ctx) (pkt : Option Pkt) :
    respStep ⟨.cleanup, pkt, c⟩ = .inl ⟨.done, pkt, cleanup c pkt⟩ := rfl

theorem run_readReply (h : Working c) (hres : c.qp.resp.res = some i)
    (hr : c.qp.resp.resources[i]? = some r) (hsmall : r.resid < 2 ^ 31) (k : ℕ) :
    ∃ c', Loop.run respStep (k + 3) ⟨.readReply, some p, c⟩ = some (true, c') ∧
      (c'.qp.resp.res = none ∨
        (Working c' ∧ c.qp.mtu < r.resid ∧ c'.qp.reqPkts = c.qp.reqPkts ∧
          ∃ r', c'.qp.resp.res = some i ∧ c'.qp.resp.resources[i]? = some r' ∧
            r'.resid = r.resid - c.qp.mtu)) := by
  have hstep : ∀ s c', readReplyRes c p i r = (s, c') →
      respStep ⟨.readReply, some p, c⟩ = .inl ⟨s, some p, c'⟩ := by
    intro s c' heq
    have hreply : readReply c p = (s, c') := by
      simp [readReply, hres, hr, heq]
    show Sum.inl _ = _
    rw [hreply]
  obtain ⟨skb, ack, hskb, -, -, -, hreply⟩ := readReplyRes_room p i (c := c)
    (by unfold Ctx.skbRoom; rw [h.alloc]; exact nofun) hsmall h.mtu_lt
  rw [hskb h.alloc, ← h.alloc] at hreply
  -- the task returns after a packet that is not the last one
  by_cases hlast : min r.resid c.qp.mtu < r.resid
  · rw [if_pos hlast] at hreply
    have hmin : min r.resid c.qp.mtu = c.qp.mtu := by omega
    refine ⟨replied c i (min r.resid c.qp.mtu) r ack, ?_,
      Or.inr ⟨⟨h.valid, h.ready, h.noError, h.alloc, h.mtu, h.mtu_lt⟩, by omega, rfl, ?_⟩⟩
    · rw [Loop.run_succ_inl (hstep _ _ hreply),
        Loop.run_succ_inr (step_done (c := replied c i _ r ack) _ h.noError)]
    · refine ⟨r.started.advance (min r.resid c.qp.mtu), hres, ?_, ?_⟩
      · show ((c.qp.resp.resources.modify i _).modify i _)[i]? = _
        simp [hr]
      · rw [hmin]
        rfl
  · rw [if_neg hlast] at hreply
    set c₁ :=
      finishRead (replied c i (min r.resid c.qp.mtu) r ack) (psnMask (r.curPsn + 1)) with hc₁
    have hnoError : (cleanup c₁ (some p)).qp.resp.gotoError = false := h.noError
    refine ⟨cleanup c₁ (some p), ?_, Or.inl rfl⟩
    rw [Loop.run_succ_inl (hstep _ _ hreply), Loop.run_succ_inl (step_cleanup c₁ _),
      Loop.run_succ_inr (step_done _ hnoError)]

theorem call_eq (hvalid : c.qp.valid) (hready : c.qp.resp.state = .ready) (fuel : ℕ) :
    rxeResponder fuel c =
      Loop.run respStep fuel ⟨.getReq, none,
        { c with qp.resp.aethSyndrome := aethAckUnlimited }⟩ := by
  unfold rxeResponder
  rw [if_neg (by simp [hvalid]), if_neg (by simp [hready])]

theorem step_getReq {pkt pkt' : Option Pkt} {state : RespState}
    (h : getReq c pkt = (state, pkt', c')) :
    respStep ⟨.getReq, pkt, c⟩ = .inl ⟨state, pkt', c'⟩ := by
  unfold respStep
  rw [h]

theorem call_readReply (h : Working c) (hq : c.qp.reqPkts ≠ []) (hres : c.qp.resp.res = some i)
    (hr : c.qp.resp.resources[i]? = some r) (hsmall : r.resid < 2 ^ 31) :
    ∃ c', rxeResponder 4 c = some (true, c') ∧
      (c'.qp.resp.res = none ∨
        (Working c' ∧ c.qp.mtu < r.resid ∧ c'.qp.reqPkts = c.qp.reqPkts ∧
          ∃ r', c'.qp.resp.res = some i ∧ c'.qp.resp.resources[i]? = some r' ∧
            r'.resid = r.resid - c.qp.mtu)) := by
  obtain ⟨p, rest, hpr⟩ := List.exists_cons_of_ne_nil hq
  have hget : getReq { c with qp.resp.aethSyndrome := aethAckUnlimited } none =
      (.readReply, some p, { c with qp.resp.aethSyndrome := aethAckUnlimited }) := by
    simp [getReq, h.ready, hpr, hres]
  have hrun := run_readReply (c := { c with qp.resp.aethSyndrome := aethAckUnlimited }) (p := p)
    ⟨h.valid, h.ready, h.noError, h.alloc, h.mtu, h.mtu_lt⟩ hres hr hsmall 0
  obtain ⟨c', hrun, hc'⟩ := hrun
  refine ⟨c', ?_, hc'⟩
  rw [call_eq h.valid h.ready, Loop.run_succ_inl (step_getReq hget)]
  exact hrun

theorem replayRun_of_replaying (h : Working c) (hq : c.qp.reqPkts ≠ [])
    (hres : c.qp.resp.res = some i) (hr : c.qp.resp.resources[i]? = some r)
    (hsmall : r.resid < 2 ^ 31) : ∃ c', ReplayRun c c' := by
  -- induction on the bytes left: every call but the last sends `mtu` of them
  induction hn : r.resid using Nat.strong_induction_on generalizing c r with
  | _ n ih =>
    obtain ⟨c₁, hcall, hdone | ⟨hw, hlt, hq', r', hres', hr', hresid⟩⟩ :=
      call_readReply h hq hres hr hsmall
    · exact ⟨c₁, .last hcall hdone⟩
    · have hmtu := h.mtu
      obtain ⟨c', hrun⟩ := ih r'.resid (by omega) hw (hq' ▸ hq) hres' hr' (by omega) rfl
      exact ⟨c', .more hcall (by simp [hres'])
        (fun op (hop : op ∈ ([] : List RespOp)) => absurd hop List.not_mem_nil) rfl hrun⟩

/-- A duplicate at the head of the queue of a responder that works normally. -/
structure DupStart (c : Ctx) (dup : Pkt) : Prop where
  rc : c.qp.type = .rc
  valid : c.qp.valid
  ready : c.qp.resp.state = .ready
  noRes : c.qp.resp.res = none
  head : c.qp.reqPkts.head? = some dup
  old : psnCompare dup.psn c.qp.resp.psn < 0

theorem call_duplicate {c₀ : Ctx} (h : DupStart c dup)
    (hc₀ : c₀ = { c with qp.resp.aethSyndrome := aethAckUnlimited }) (n : ℕ) :
    rxeResponder (n + 3) c = Loop.run respStep n
      ⟨(duplicateRequest c₀ dup).1, some dup, (duplicateRequest c₀ dup).2⟩ := by
  obtain ⟨rest, hq⟩ : ∃ rest, c.qp.reqPkts = dup :: rest := List.head?_eq_some_iff.1 h.head
  have hget : getReq c₀ none = (.chkPsn, some dup, c₀) := by
    simp [getReq, hc₀, h.ready, hq, h.noRes]
  have hpsn : respCheckPsn c₀ dup = (.duplicateRequest, c₀) := by
    have hold : psnCompare dup.psn c₀.qp.resp.psn < 0 := by
      rw [hc₀]
      exact h.old
    unfold respCheckPsn
    rw [show c₀.qp.type = .rc by rw [hc₀]; exact h.rc]
    dsimp only
    rw [if_neg (by omega), if_pos hold]
  rw [call_eq h.valid h.ready, ← hc₀, Loop.run_succ_inl (step_getReq hget)]
  refine (Loop.run_succ_inl (show respStep ⟨.chkPsn, some dup, c₀⟩ =
    .inl ⟨.duplicateRequest, some dup, c₀⟩ from ?_)).trans (Loop.run_succ_inl rfl)
  show Sum.inl (⟨_, _, _⟩ : RespCfg) = _
  rw [hpsn]

theorem run_cleanup (pkt : Option Pkt) (h : c.qp.resp.gotoError = false) :
    Loop.run respStep 2 ⟨.cleanup, pkt, c⟩ = some (true, cleanup c pkt) :=
  (Loop.run_succ_inl (step_cleanup c pkt)).trans (Loop.run_succ_inr (step_done pkt h))

theorem replayRun_of_start (h : ReplayStart c dup) (hw : Working c)
    (hsmall : dup.reth.len < 2 ^ 31) : ∃ c', ReplayRun c c' := by
  set c₀ : Ctx := { c with qp.resp.aethSyndrome := aethAckUnlimited } with hc₀
  have hdup : duplicateRequest c₀ dup = duplicateRead c₀ dup := by
    simp [duplicateRequest, Pkt.mask, h.dup.opcode, rxeOpcodeMask]
  have hsteps := call_duplicate ⟨h.rc, h.valid, h.ready, h.noRes, h.head, h.dup.old⟩ hc₀
  rw [hdup] at hsteps
  have hdrop : ∀ pkt, Loop.run respStep 2 ⟨.cleanup, pkt, c₀⟩ = some (true, cleanup c₀ pkt) :=
    fun pkt => run_cleanup pkt hw.noError
  unfold duplicateRead at hsteps
  split at hsteps
  · exact ⟨_, .last ((hsteps 2).trans (hdrop _)) h.noRes⟩
  · split at hsteps
    · exact ⟨_, .last ((hsteps 2).trans (hdrop _)) h.noRes⟩
    · next i _ _ res hres =>
      split at hsteps
      · next hok =>
        set c₁ : Ctx := { setRes c₀ i (replayRes dup) with qp.resp.res := some i } with hc₁
        have hw₁ : Working c₁ := ⟨hw.valid, hw.ready, hw.noError, hw.alloc, hw.mtu, hw.mtu_lt⟩
        have hr₁ : c₁.qp.resp.resources[i]? = some (replayRes dup res) := by
          simp [hc₁, setRes, hres]
        -- the first packet is sent in the call that finds the duplicate
        obtain ⟨c', hrun, hc'⟩ := run_readReply (p := dup) hw₁ rfl hr₁ hsmall 0
        have hcall := (hsteps 3).trans hrun
        rcases hc' with hend | ⟨hw', hlt, hq', r', hres', hr', hresid⟩
        · exact ⟨c', .last hcall hend⟩
        · have hne : c'.qp.reqPkts ≠ [] := by
            rw [hq']
            have hhead : c₁.qp.reqPkts.head? = some dup := h.head
            intro hnil
            simp [hnil] at hhead
          have hsmall' : r'.resid < 2 ^ 31 := by
            rw [hresid]
            exact lt_of_le_of_lt (Nat.sub_le _ _) hsmall
          obtain ⟨c'', hrest⟩ := replayRun_of_replaying hw' hne hres' hr' hsmall'
          exact ⟨c'', .more hcall (by simp [hres'])
            (fun op (hop : op ∈ ([] : List RespOp)) => absurd hop List.not_mem_nil) rfl hrest⟩
      · exact ⟨_, .last ((hsteps 2).trans (hdrop _)) h.noRes⟩

/-! ### The expected PSN after a replay -/

/-- The duplicate is dropped, or its responses reach up to the expected PSN. -/
def replayReaches (qp : Qp) (dup : Pkt) : Prop :=
  dropped qp dup ∨ 0 ≤ psnCompare (dup.psn + numResponses qp.mtu dup.reth.len) qp.resp.psn

/-- A replay does not move `resp.psn` backwards exactly when the duplicate is dropped or
its responses reach up to `resp.psn`; where allocations succeed, the replay ends. -/
theorem replay_keeps_psn_iff (c : Ctx) (dup : Pkt) (h : ReplayStart c dup) :
    (∀ c', ReplayRun c c' →
      (0 ≤ psnCompare c'.qp.resp.psn c.qp.resp.psn ↔ replayReaches c.qp dup)) ∧
    (Working c → dup.reth.len < 2 ^ 31 → ∃ c', ReplayRun c c') := by
  refine ⟨fun c' hrun => ?_, replayRun_of_start h⟩
  rw [replayRun_psn h hrun, replayEnd, replayReaches]
  cases hd : dropped c.qp dup with
  | true => simp [psnCompare_self]
  | false => simp [psnCompare_mask_left]

/-- A DMA region with the keys `0x100`. -/
def dmaRegion : Mem :=
  { pd := 0, lkey := 0x100, rkey := 0x100, state := .valid, type := .dma, iova := 0, length := 0,
    offset := 0, access := [.localWrite, .remoteWrite, .remoteRead, .remoteAtomic], pageShift := 0,
    pageMask := 0, mapShift := 0, mapMask := 0, map := [] }

/-- An RC responder with one resource and two receive WQEs. -/
def replayQp : Ctx :=
  { qp :=
      { type := .rc
        sq := ⟨[], []⟩
        rq := ⟨[{ wrId := 1 }, { wrId := 2 }], [{}]⟩
        attr := { maxRdAtomic := 1, qpAccessFlags := [.remoteRead] }
        resp := { state := .ready, resources := [{}] } }
    dev := { mem := fun i => if i = 1 then some dmaRegion else none } }

def replayRead : Pkt :=
  { opcode := .rcRdmaReadRequest, psn := 0, ackReq := true, reth := ⟨8, 0x100, 4⟩ }

def replaySend : Pkt := { opcode := .rcSendOnly, psn := 1, ackReq := true }

/-- A READ at PSN 0 and a SEND at PSN 1 are executed; the requester retries both.  The
replayed READ takes the expected PSN back to 1, and the SEND is executed again. -/
theorem replay_repeats_send :
    ∃ c₁ c₂ c₃,
      respRun replayQp [.recv replayRead, .task 20, .recv replaySend, .task 20] = some c₁ ∧
      respRun c₁ [.recv replayRead, .task 20] = some c₂ ∧
      respRun c₂ [.recv replaySend, .task 20] = some c₃ ∧
      c₁.qp.resp.psn = 2 ∧ c₂.qp.resp.res = none ∧ c₂.qp.resp.psn = 1 ∧
      psnCompare c₂.qp.resp.psn c₁.qp.resp.psn < 0 ∧ execPsns c₃.out = [0, 1, 1] :=
  ⟨_, _, _, rfl, rfl, rfl, rfl, rfl, rfl, by decide, rfl⟩

/-- The same READ retried before anything else was executed. -/
theorem replay_keeps_psn_first :
    ∃ c c', respRun replayQp [.recv replayRead, .task 20, .recv replayRead] = some c ∧
      ReplayStart c replayRead ∧ ReplayRun c c' ∧
      0 ≤ psnCompare c'.qp.resp.psn c.qp.resp.psn := by
  obtain ⟨c, hc⟩ : ∃ c, respRun replayQp [.recv replayRead, .task 20, .recv replayRead] = some c :=
    ⟨_, rfl⟩
  have hstart : ReplayStart c replayRead := by
    cases hc
    exact ⟨rfl, rfl, rfl, by decide, by decide, rfl, rfl, ⟨rfl, by decide, by decide⟩⟩
  have hiff := replay_keeps_psn_iff c replayRead hstart
  have hreach : replayReaches c.qp replayRead := by
    cases hc
    exact Or.inr (by decide)
  obtain ⟨c', hrun⟩ :=
    hiff.2 (by cases hc; exact ⟨rfl, rfl, rfl, rfl, by decide, by decide⟩) (by decide)
  exact ⟨c, c', hc, hstart, hrun, (hiff.1 c' hrun).2 hreach⟩

end Rxe
