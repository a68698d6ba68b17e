/-
Replaying a duplicate atomic.

The response to an atomic is kept in a resource so that it can be sent again.  The
resource is found by PSN, but `send_atomic_ack` records `resp.psn`, which `execute` has
already advanced:

* `atomicRec_run` — in every run, the record of an atomic is filed under the PSN after
  its own;
* `atomic_replay_iff` — so a duplicate is answered correctly exactly when it repeats the
  request executed last, and the record found under its PSN, which is that of the request
  before, happens to hold the same value;
* `atomic_replay_wrong` — of two atomics, the first gets no answer to its duplicate and the
  second the result of the first.
-/
import Rxe.RespReplay

namespace Rxe

variable {c c' : Ctx} {resources : List RespRes}

/-- A kept response `ack` to an executed atomic, filed under the PSN after that of the
request. -/
def AtomicRec (r : RespRes) (ack : Pkt) (es : List Event) : Prop :=
  ack.opcode = .rcAtomicAcknowledge ∧ ∃ pkt : Pkt, .exec pkt ack.atmack ∈ es ∧ pkt.mask.atomic ∧
    r.firstPsn = psnMask (pkt.psn + 1) ∧ r.lastPsn = psnMask (pkt.psn + 1)

/-- Every response kept in the ring is one of these. -/
def RingOk (resources : List RespRes) (es : List Event) : Prop :=
  ∀ r ∈ resources, r.type ≠ .none → ∀ ack, r.ptr = .skb ack → AtomicRec r ack es

theorem RingOk.mono {es : List Event} (h : RingOk resources es)
    (es' : List Event) : RingOk resources (es ++ es') := by
  intro r hr ht ack hack
  obtain ⟨hop, pkt, hmem, hrec⟩ := h r hr ht ack hack
  exact ⟨hop, pkt, List.mem_append_left es' hmem, hrec⟩

theorem RingOk.modify {es : List Event} (h : RingOk resources es)
    (i : ℕ) (f : RespRes → RespRes)
    (hf : ∀ r, resources[i]? = some r → (f r).type ≠ .none → ∀ ack, (f r).ptr = .skb ack →
      AtomicRec (f r) ack es) :
    RingOk (resources.modify i f) es := by
  intro r hr ht
  obtain ⟨j, hj⟩ := List.mem_iff_getElem?.1 hr
  rw [List.getElem?_modify] at hj
  obtain ⟨r', hr', hsel⟩ := Option.map_eq_some_iff.1 hj
  by_cases hij : i = j
  · subst hij
    rw [if_pos rfl] at hsel
    subst hsel
    exact hf r' hr' ht
  · rw [if_neg hij] at hsel
    subst hsel
    exact h r' (List.mem_of_getElem? hr') ht

theorem RingOk.modify_same {es : List Event} (h : RingOk resources es)
    (i : ℕ) {f : RespRes → RespRes}
    (hf : ∀ r, (f r).type = r.type ∧ (f r).ptr = r.ptr ∧ (f r).firstPsn = r.firstPsn ∧
      (f r).lastPsn = r.lastPsn) : RingOk (resources.modify i f) es := by
  refine h.modify i f fun r hr ht ack hack => ?_
  obtain ⟨htype, hptr, hfirst, hlast⟩ := hf r
  obtain ⟨hop, pkt, hmem, hat, h1, h2⟩ :=
    h r (List.mem_of_getElem? hr) (htype ▸ ht) ack (hptr ▸ hack)
  exact ⟨hop, pkt, hmem, hat, hfirst.trans h1, hlast.trans h2⟩

theorem mask_comp_atomic (pkt : Pkt) (h : pkt.mask.comp) : pkt.mask.atomic = false := by
  unfold Pkt.mask at h ⊢
  revert h
  cases pkt.opcode <;> simp [rxeOpcodeMask]

/-- What is known of an atomic in hand in each state; `orig` is `resp.atomic_orig`. -/
def atomicPos (state : RespState) (pkt : Option Pkt) (orig : ℕ) (v : Ctx) : Prop :=
  match state with
  | .complete =>
    v.qp.resp.state ≠ .error → v.qp.resp.aethSyndrome = aethAckUnlimited →
      ∀ p ∈ pkt, p.mask.atomic = false
  | .acknowledge =>
    v.qp.resp.aethSyndrome = aethAckUnlimited → ∀ p ∈ pkt, p.mask.atomic →
      .exec p orig ∈ v.out ∧ v.qp.resp.psn = psnMask (p.psn + 1)
  | .errMissingOpcodeLastD1e => False
  | _ => True

/-- Invariant of the responder loop, on the view of its context. -/
structure AtomicInv (state : RespState) (pkt : Option Pkt) (orig : ℕ) (v : Ctx) : Prop where
  rc : v.qp.type = .rc
  ring : RingOk v.qp.resp.resources v.out
  pos : atomicPos state pkt orig v

namespace AtomicInv

variable {state state' : RespState} {pkt : Option Pkt} {orig orig' : ℕ} {c c' v : Ctx}

theorem goto (h : AtomicInv state pkt orig v) (hpos : atomicPos state' pkt orig' v) :
    AtomicInv state' pkt orig' v :=
  { h with pos := hpos }

theorem sendAck {p : Pkt} {syndrome psn : ℕ} (h : AtomicInv state pkt orig (respView c)) :
    AtomicInv .cleanup pkt orig' (respView (sendAck c p syndrome psn)) := by
  rcases sendAck_view c p syndrome psn with hv | ⟨ack, -, -, -, hv⟩
  · rw [hv]
    exact h.goto trivial
  · rw [hv]
    exact ⟨h.rc, h.ring.mono [_], trivial⟩

theorem finishRead (h : AtomicInv state pkt orig v) (psn : ℕ) :
    AtomicInv .cleanup pkt orig' (finishRead v psn) :=
  ⟨h.rc, h.ring, trivial⟩

theorem classAcError {status : WcStatus} {syndrome : ℕ}
    (h : AtomicInv state pkt orig (respView c)) (hsyn : syndrome ≠ aethAckUnlimited) :
    AtomicInv .complete pkt orig' (respView (doClassAcError c syndrome status)) :=
  ⟨h.rc, h.ring, fun _ heq => absurd heq hsyn⟩

end AtomicInv

/-! ### One pass of the loop -/

section Step

variable {pkt : Option Pkt} {orig : ℕ} {c : Ctx} {p : Pkt}

theorem getReq_atomic (h : AtomicInv .getReq pkt orig (respView c)) (orig' : ℕ) :
    AtomicInv (getReq c pkt).1 (getReq c pkt).2.1 orig' (respView (getReq c pkt).2.2) := by
  unfold getReq
  split
  · split
    · exact ⟨h.rc, h.ring, trivial⟩
    · exact ⟨h.rc, h.ring, trivial⟩
  · split
    · exact ⟨h.rc, h.ring, trivial⟩
    · refine ⟨h.rc, h.ring, ?_⟩
      dsimp only
      split <;> trivial

theorem respCheckPsn_atomic (h : AtomicInv .chkPsn pkt orig (respView c)) (orig' : ℕ) :
    AtomicInv (respCheckPsn c p).1 pkt orig' (respView (respCheckPsn c p).2) := by
  unfold respCheckPsn
  rw [show c.qp.type = .rc from h.rc]
  dsimp only
  split
  · split <;> exact ⟨h.rc, h.ring, trivial⟩
  · split <;> exact ⟨h.rc, h.ring, trivial⟩

theorem checkOpSeq_atomic (h : AtomicInv .chkOpSeq pkt orig (respView c)) (orig' : ℕ) :
    AtomicInv (checkOpSeq c p).1 pkt orig' (respView (checkOpSeq c p).2) := by
  rw [checkOpSeq_view]
  refine h.goto ?_
  unfold checkOpSeq
  rw [show c.qp.type = .rc from h.rc]
  dsimp only
  split <;> split <;> trivial

theorem checkOpValid_atomic (h : AtomicInv .chkOpValid pkt orig (respView c)) (orig' : ℕ) :
    AtomicInv (checkOpValid c p).1 pkt orig' (respView (checkOpValid c p).2) := by
  rw [checkOpValid_view]
  refine h.goto ?_
  unfold checkOpValid
  rw [show c.qp.type = .rc from h.rc]
  dsimp only
  split <;> trivial

theorem checkResource_atomic (h : AtomicInv .chkResource pkt orig (respView c)) (orig' : ℕ) :
    AtomicInv (checkResource c pkt).1 pkt orig' (respView (checkResource c pkt).2) := by
  rw [checkResource_view]
  refine h.goto ?_
  by_cases herr : c.qp.resp.state = .error
  · rcases checkResource_state_error pkt herr with hs | hs
    · rw [hs]
      exact fun hne => absurd herr hne
    · rw [hs]
      trivial
  · rcases checkResource_next pkt herr with hs | hs | hs | ⟨hs, -⟩ <;> rw [hs] <;> trivial

theorem checkRkey_atomic (h : AtomicInv .chkRkey pkt orig (respView c)) (orig' : ℕ) :
    AtomicInv (checkRkey c p).1 pkt orig' (respView (checkRkey c p).2) := by
  rw [checkRkey_view]
  refine h.goto ?_
  rcases checkRkey_state c p with hs | ⟨-, hs | hs⟩ <;> rw [hs] <;> trivial

theorem executeDone_atomic (h : AtomicInv .execute (some p) orig (respView c)) :
    AtomicInv (executeDone c p).1 (some p) (executeDone c p).2.qp.resp.atomicOrig
      (respView (executeDone c p).2) := by
  unfold executeDone
  dsimp only
  rw [respView_emit_resp _ rfl]
  refine ⟨h.rc, h.ring.mono [_], ?_⟩
  split
  · next hcomp =>
    intro _ _ q hq
    obtain rfl : p = q := by simpa using hq
    exact mask_comp_atomic p hcomp
  · split
    · intro _ q hq _
      obtain rfl : p = q := by simpa using hq
      exact ⟨List.mem_append_right _ List.mem_cons_self, rfl⟩
    · trivial

theorem execute_atomic (h : AtomicInv .execute (some p) orig (respView c)) :
    AtomicInv (execute c p).1 (some p) (execute c p).2.qp.resp.atomicOrig
      (respView (execute c p).2) := by
  unfold execute
  split
  · rw [respView_emit_resp _ rfl]
    exact ⟨h.rc, h.ring.mono [_], trivial⟩
  · have hv := executeData_view c p
    split
    · next err c' hdata =>
      have herr := executeData_err (show (executeData c p).1 = some err by rw [hdata])
      rw [hdata] at hv
      rw [hv]
      refine h.goto ?_
      rcases herr with rfl | rfl | rfl | rfl <;> trivial
    · next c' hdata =>
      rw [hdata] at hv
      rw [← hv] at h
      exact executeDone_atomic h

theorem respDoComplete_atomic (h : AtomicInv .complete pkt orig (respView c)) (orig' : ℕ) :
    AtomicInv (respDoComplete c pkt).1 pkt orig' (respView (respDoComplete c pkt).2) := by
  have hv := respDoComplete_view c pkt
  have hstate : (respDoComplete c pkt).2.qp.resp.state = c.qp.resp.state :=
    congrArg (·.qp.resp.state) hv
  have htype : (respDoComplete c pkt).2.qp.type = .rc :=
    (congrArg (·.qp.type) hv).trans h.rc
  have hpos : c.qp.resp.state ≠ .error → c.qp.resp.aethSyndrome = aethAckUnlimited →
      ∀ p ∈ pkt, p.mask.atomic = false := h.pos
  rw [hv]
  refine h.goto ?_
  rcases respDoComplete_state c pkt with hs | hs | hs
  · rw [hs]
    trivial
  · rw [hs]
    trivial
  · rw [hs, respAfterCqe, hstate, htype]
    split
    · trivial
    · next hne =>
      split
      · trivial
      · -- what was completed is not an atomic
        intro hsyn q hq hat
        rw [hpos hne hsyn q hq] at hat
        cases hat

theorem sendAtomicAck_atomic
    (h : AtomicInv .acknowledge (some p) c.qp.resp.atomicOrig (respView c))
    (hsyn : c.qp.resp.aethSyndrome = aethAckUnlimited) (hat : p.mask.atomic) (orig' : ℕ) :
    AtomicInv .cleanup (some p) orig' (respView (sendAtomicAck c p aethAckUnlimited)) := by
  obtain ⟨hexec, hpsn⟩ : .exec p c.qp.resp.atomicOrig ∈ (respView c).out ∧
      c.qp.resp.psn = psnMask (p.psn + 1) := h.pos hsyn p rfl hat
  unfold sendAtomicAck
  split
  · next hprep =>
    rw [prepareAckPacket_none_zero hprep, takeSkb_view]
    exact h.goto trivial
  · next ack c' hprep =>
    obtain ⟨rfl, hop, -, -, horig, -⟩ := prepareAckPacket_some hprep
    have hrec : AtomicInv .cleanup (some p) orig'
        (respView (keepAtomicAck c.takeSkb.2 ack)) := by
      rw [keepAtomicAck_view, takeSkb_view]
      refine ⟨h.rc, RingOk.modify h.ring _ _ fun r _ _ ack' hack => ?_, trivial⟩
      cases hack
      exact ⟨hop, p, (horig rfl).symm ▸ hexec, hat, hpsn, hpsn⟩
    rcases sendClone_view (keepAtomicAck c.takeSkb.2 ack) ack with hv | hv
    · rw [hv]
      exact hrec
    · rw [hv]
      exact ⟨hrec.rc, hrec.ring.mono [_], trivial⟩

theorem acknowledge_atomic
    (h : AtomicInv .acknowledge (some p) c.qp.resp.atomicOrig (respView c)) (orig' : ℕ) :
    AtomicInv .cleanup (some p) orig' (respView (acknowledge c p)) := by
  unfold acknowledge
  split
  · exact h.goto trivial
  · split
    · exact h.sendAck
    · next hsyn =>
      split
      · next hat => exact sendAtomicAck_atomic h (not_not.1 hsyn) hat orig'
      · split
        · exact h.sendAck
        · exact h.goto trivial

theorem initReadRes_atomic (h : AtomicInv .readReply pkt orig (respView c)) (orig' : ℕ) :
    AtomicInv .readReply pkt orig' (respView (initReadRes c p)) := by
  refine ⟨h.rc, ?_, trivial⟩
  change RingOk (initReadRes c p).qp.resp.resources _
  rw [initReadRes_resources, respView_out, initReadRes_out]
  -- a read keeps a region, not a response
  refine RingOk.modify h.ring _ _ fun r _ _ ack hack => ?_
  unfold RespRes.startRead at hack
  dsimp only at hack
  split at hack <;> cases hack

theorem readReplyRes_atomic (h : AtomicInv .readReply pkt orig (respView c)) (i : ℕ)
    (res : RespRes) (orig' : ℕ) :
    AtomicInv (readReplyRes c p i res).1 pkt orig' (respView (readReplyRes c p i res).2) := by
  have hstarted := h.ring.modify_same i (f := RespRes.started) fun r => ⟨rfl, rfl, rfl, rfl⟩
  unfold readReplyRes
  dsimp only
  split
  · next hprep =>
    rcases prepareAckPacket_none hprep with hc | ⟨-, hc⟩ <;> rw [hc]
    · rw [takeSkb_view, setRes_view]
      exact ⟨h.rc, hstarted, trivial⟩
    · rw [respView_emit _ rfl, takeSkb_view, setRes_view]
      exact ⟨h.rc, hstarted, trivial⟩
  · next ack c' hprep =>
    obtain ⟨rfl, -⟩ := prepareAckPacket_some hprep
    have hsent : ∀ n e, AtomicInv .done pkt orig'
        ((setRes (setRes (respView c) i RespRes.started) i (RespRes.advance n)).emit e) := by
      intro n e
      have hadv := hstarted.modify_same i (f := RespRes.advance n) fun r => ⟨rfl, rfl, rfl, rfl⟩
      exact ⟨h.rc, hadv.mono [e], trivial⟩
    split
    · rw [respView_emit_resp _ rfl, setRes_view, copyFrom_view, takeSkb_view, setRes_view]
      exact hsent _ _
    · rw [finishRead_emit, respView_emit_resp _ rfl, finishRead_view, setRes_view, copyFrom_view,
        takeSkb_view, setRes_view, ← finishRead_emit]
      exact (hsent _ _).finishRead _

theorem readReply_atomic (h : AtomicInv .readReply pkt orig (respView c)) (orig' : ℕ) :
    AtomicInv (readReply c p).1 pkt orig' (respView (readReply c p).2) := by
  have hinit : AtomicInv .readReply pkt orig
      (respView (if c.qp.resp.res.isNone then initReadRes c p else c)) := by
    split
    · exact initReadRes_atomic h orig
    · exact h
  unfold readReply
  dsimp only
  split
  · exact hinit.goto trivial
  · split
    · exact hinit.goto trivial
    · exact readReplyRes_atomic hinit _ _ orig'

theorem duplicateAtomic_atomic (h : AtomicInv .duplicateRequest pkt orig (respView c))
    (orig' : ℕ) : AtomicInv .cleanup pkt orig' (respView (duplicateAtomic c p)) := by
  have hcase := duplicateAtomic_cases c p
  generalize duplicateAtomic c p = d at hcase
  cases hcase with
  | resent i r ack _ hr hskb _ =>
    rw [resendAtomic, respView_emit_resp _ rfl, setRes_view, takeSkb_view]
    refine ⟨h.rc, RingOk.mono (RingOk.modify h.ring i _ fun r' hr' ht ack' hack => ?_) [_], trivial⟩
    -- only the PSN of the kept response changes
    obtain rfl : r = r' := Option.some_inj.1 (hr.symm.trans hr')
    cases hack
    obtain ⟨hop, q, hmem, hat, hfirst, hlast⟩ :=
      h.ring r (List.mem_of_getElem? hr) ht ack hskb
    exact ⟨hop, q, hmem, hat, hfirst, hlast⟩
  | dropped d hd _ =>
    rcases hd with hd | hd <;> rw [hd]
    · exact h.goto trivial
    · rw [takeSkb_view]
      exact h.goto trivial
  | wild =>
    rw [respView_emit _ rfl]
    exact h.goto trivial

theorem duplicateRequest_atomic (h : AtomicInv .duplicateRequest pkt orig (respView c))
    (orig' : ℕ) :
    AtomicInv (duplicateRequest c p).1 pkt orig' (respView (duplicateRequest c p).2) := by
  unfold duplicateRequest
  split
  · dsimp only
    split
    · exact h.sendAck
    · exact h.goto trivial
  · split
    · unfold duplicateRead
      split
      · exact h.goto trivial
      · split
        · exact h.goto trivial
        · split
          · exact ⟨h.rc, h.ring.modify_same _ fun r => ⟨rfl, rfl, rfl, rfl⟩, trivial⟩
          · exact h.goto trivial
    · exact duplicateAtomic_atomic h orig'

end Step

/-! ### Runs -/

/-- The invariant between calls. -/
abbrev AtomicIdle (c : Ctx) : Prop := AtomicInv .exit none 0 (respView c)

theorem AtomicIdle.qpError (h : AtomicIdle c) : AtomicIdle (rxeQpError c) := by
  unfold AtomicIdle
  rw [rxeQpError_view (show c.qp.type = .rc from h.rc)]
  exact ⟨h.rc, h.ring, trivial⟩

theorem atomicRule : PassRule (fun (_ : Unit) _ => ())
    (fun _ state pkt c => AtomicInv state pkt c.qp.resp.atomicOrig (respView c))
    (fun _ state pkt c => AtomicInv state pkt c.qp.resp.atomicOrig (respView c))
    (fun _ => AtomicIdle) where
  getReq _ _ _ h := getReq_atomic h _
  chkPsn _ _ _ h := respCheckPsn_atomic h _
  chkOpSeq _ _ _ h := checkOpSeq_atomic h _
  chkOpValid _ _ _ h := checkOpValid_atomic h _
  chkResource _ _ _ h := checkResource_atomic h _
  chkLength _ _ _ h := h.goto trivial
  chkRkey _ _ _ h := checkRkey_atomic h _
  execute _ _ _ h := execute_atomic h
  complete _ _ _ h := respDoComplete_atomic h _
  readReply _ _ _ h := readReply_atomic h _
  acknowledge _ _ _ h := acknowledge_atomic h _
  cleanup _ _ _ h := ⟨h.rc, h.ring, trivial⟩
  duplicateRequest _ _ _ h := duplicateRequest_atomic h _
  errPsn _ _ _ h := h.sendAck
  errAc _ _ _ _ _ _ hclass h :=
    h.classAcError fun hack => classAc_nak hclass (by rw [hack]; rfl)
  -- the position excludes class D1E, which an RC QP never meets
  errD1e _ _ _ h := h.pos.elim
  errRnr _ _ c h := by
    rw [respErrRnr, if_pos (show c.qp.type = .rc from h.rc)]
    exact h.sendAck
  errRkey _ _ c h := by
    rw [respErrRkey, if_pos (show c.qp.type = .rc from h.rc)]
    exact h.classAcError (by decide)
  errLength _ _ c h := by
    rw [respErrLength, if_pos (show c.qp.type = .rc from h.rc)]
    exact h.classAcError (by decide)
  toError _ _ _ _ _ h := h.goto trivial
  leave _ _ _ _ _ h := ⟨h.rc, h.ring, trivial⟩
  error _ _ c h :=
    AtomicIdle.qpError (c := { c with qp.resp.gotoError := false }) ⟨h.rc, h.ring, trivial⟩
  reset _ _ _ h := ⟨h.rc, h.ring, trivial⟩

theorem respOp_atomic {op : RespOp} (h : AtomicIdle c)
    (hc : respOp c op = some c') : AtomicIdle c' := by
  cases op with
  | recv pkt =>
    cases hc
    unfold AtomicIdle
    rw [rxeRespQueuePkt, respView_emit _ rfl]
    exact ⟨h.rc, h.ring, trivial⟩
  | task fuel =>
    obtain ⟨r, hr, rfl⟩ := Option.map_eq_some_iff.1 hc
    refine atomicRule.call ?_ hr
    unfold respEnter
    dsimp only
    split
    · exact ⟨h.rc, h.ring, trivial⟩
    · refine ⟨h.rc, h.ring, ?_⟩
      dsimp only
      split <;> trivial
  | postRecv wrs =>
    cases hc
    unfold rxePostRecv
    split
    · exact h
    · exact ⟨h.rc, h.ring, trivial⟩
  | error =>
    cases hc
    exact AtomicIdle.qpError h
  | env dev skb cq =>
    cases hc
    exact ⟨h.rc, h.ring, trivial⟩

/-- A responder that has not executed anything. -/
structure Fresh (c : Ctx) : Prop where
  rc : c.qp.type = .rc
  unused : ∀ r ∈ c.qp.resp.resources, r.type = .none

/-- In every run of a fresh responder the responses it keeps are filed under the PSN after
that of their request. -/
theorem atomicRec_run {ops : List RespOp} (h : Fresh c)
    (hrun : respRun c ops = some c') : RingOk c'.qp.resp.resources c'.out := by
  have hidle : AtomicIdle c := ⟨h.rc, fun r hr ht => absurd (h.unused r hr) ht, trivial⟩
  have hidle' : AtomicIdle c' := respRun_inv
    (fun _ _ _ hc (_ : True) => respOp_atomic hc) hidle (fun _ _ => trivial) hrun
  intro r hr ht ack hack
  obtain ⟨hop, pkt, hmem, hrec⟩ := hidle'.ring r hr ht ack hack
  exact ⟨hop, pkt, (List.mem_filter.1 hmem).1, hrec⟩

/-! ### The answer to a duplicate -/

theorem findResource_covers {qp : Qp} {psn i : ℕ} {r : RespRes}
    (h : findResource qp psn = some i) (hr : qp.resp.resources[i]? = some r) : r.covers psn := by
  obtain ⟨hi, hcov, -⟩ := List.findIdx?_eq_some_iff_getElem.1 h
  rw [List.getElem_take] at hcov
  obtain ⟨_, hget⟩ := List.getElem?_eq_some_iff.1 hr
  rwa [hget] at hcov

/-- The response sent is the one an atomic at the PSN of `dup` gets whose target held
`orig`. -/
def Answered (c c' : Ctx) (dup : Pkt) (orig : ℕ) : Prop :=
  ∃ ack : Pkt, c'.out = c.out ++ [.sendResp ack] ∧ ack.opcode = .rcAtomicAcknowledge ∧
    ack.psn = dup.psn ∧ ack.atmack = orig

/-- The duplicate repeats the request executed last, the kept skb can be cloned, and the
response found under the PSN of the duplicate holds `orig`. -/
def AnswerRecorded (c : Ctx) (dup : Pkt) (orig : ℕ) : Prop :=
  psnSub c.qp.resp.psn 1 = dup.psn ∧ c.skb.headD true ∧
    ∃ i r ack, findResource c.qp dup.psn = some i ∧ c.qp.resp.resources[i]? = some r ∧
      r.ptr = .skb ack ∧ ack.atmack = orig

theorem AnswerRecorded.previous {dup : Pkt} {orig : ℕ}
    (hring : RingOk c.qp.resp.resources c.out) (h : AnswerRecorded c dup orig) :
    ∃ prev : Pkt, .exec prev orig ∈ c.out ∧ prev.mask.atomic ∧
      psnMask (prev.psn + 1) = psnMask dup.psn := by
  obtain ⟨-, -, i, r, ack, hfind, hr, hptr, rfl⟩ := h
  have hcov := findResource_covers hfind hr
  simp only [RespRes.covers, Bool.and_eq_true, decide_eq_true_eq] at hcov
  obtain ⟨⟨htype, hlo⟩, hhi⟩ := hcov
  obtain ⟨-, prev, hexec, hat, hfirst, hlast⟩ := hring r (List.mem_of_getElem? hr) htype ack hptr
  rw [hfirst] at hlo
  rw [hlast] at hhi
  have hsame := psnCompare_eq_zero.1 (le_antisymm hhi hlo)
  refine ⟨prev, hexec, hat, ?_⟩
  rw [hsame, psnMask_of_lt (psnMask_lt _)]

/-- What `find_resource` finds is a kept response, and not the region of a read. -/
def FindsResponse (c : Ctx) (dup : Pkt) : Prop :=
  ∀ i r, findResource c.qp dup.psn = some i → c.qp.resp.resources[i]? = some r →
    ∃ ack, r.ptr = .skb ack

theorem duplicateAtomic_frame (c : Ctx) (dup : Pkt) :
    (duplicateAtomic c dup).dev = c.dev ∧
      (duplicateAtomic c dup).qp.resp.gotoError = c.qp.resp.gotoError ∧
      (c.tame → ((duplicateAtomic c dup).tame ↔ FindsResponse c dup)) := by
  have hqp := takeSkb_qp c
  obtain ⟨hdev, hout⟩ := takeSkb_frame c
  have hcase := duplicateAtomic_cases c dup
  generalize duplicateAtomic c dup = d at hcase
  cases hcase with
  | resent i r ack hfind hr hskb _ =>
    refine ⟨hdev, congrArg (·.resp.gotoError) hqp,
      fun htame => iff_of_true ?_ fun j r' hj hr' => ?_⟩
    · show .wild ∉ c.takeSkb.2.out ++ [.sendResp _]
      rw [hout]
      simpa [Ctx.tame] using htame
    · cases hfind.symm.trans hj
      cases hr.symm.trans hr'
      exact ⟨ack, hskb⟩
  | dropped d hd hfound =>
    have hfinds : FindsResponse c dup := fun i r hi hr => (hfound i r hi hr).imp fun _ h => h.1
    rcases hd with hd | hd <;> rw [hd]
    · exact ⟨rfl, rfl, fun htame => iff_of_true htame hfinds⟩
    · refine ⟨hdev, by rw [hqp], fun htame => iff_of_true ?_ hfinds⟩
      rwa [Ctx.tame, hout]
  -- only the clone of a region is a wild access
  | wild i r hfind hr hptr =>
    refine ⟨rfl, rfl, fun _ => iff_of_false (fun htame => htame ?_) fun hfinds => ?_⟩
    · exact List.mem_append_right _ List.mem_cons_self
    · obtain ⟨ack, hack⟩ := hfinds i r hfind hr
      exact hptr ack hack

theorem duplicateAtomic_answered (dup : Pkt) (orig : ℕ)
    (hring : RingOk c.qp.resp.resources c.out) :
    Answered c (duplicateAtomic c dup) dup orig ↔ AnswerRecorded c dup orig := by
  have hout := (takeSkb_frame c).2
  have hcase := duplicateAtomic_cases c dup
  generalize duplicateAtomic c dup = d at hcase
  cases hcase with
  | resent i r ack hfind hr hskb hclone =>
    have hcov := findResource_covers hfind hr
    simp only [RespRes.covers, Bool.and_eq_true, decide_eq_true_eq] at hcov
    -- what a resource keeps is an atomic acknowledgement
    have hop := (hring r (List.mem_of_getElem? hr) hcov.1.1 ack hskb).1
    have hsent : (resendAtomic c.takeSkb.2 i ack (psnSub c.qp.resp.psn 1)).out =
        c.out ++ [.sendResp { ack with psn := psnSub c.qp.resp.psn 1 }] := by
      rw [← hout]
      rfl
    constructor
    · rintro ⟨ack', hsent', -, hpsn, horig⟩
      have hlast := List.append_cancel_left (hsent.symm.trans hsent')
      obtain rfl : { ack with psn := psnSub c.qp.resp.psn 1 } = ack' := by
        injection hlast with hev
        injection hev
      exact ⟨hpsn, takeSkb_fst c ▸ hclone, i, r, ack, hfind, hr, hskb, horig⟩
    · rintro ⟨hpsn, -, i', r', ack', hfind', hr', hskb', rfl⟩
      obtain rfl : i = i' := Option.some_inj.1 (hfind.symm.trans hfind')
      obtain rfl : r = r' := Option.some_inj.1 (hr.symm.trans hr')
      obtain rfl : ack = ack' := by
        injection hskb.symm.trans hskb'
      exact ⟨_, hsent, hop, hpsn, rfl⟩
  -- no resource, or no clone: nothing is sent
  | dropped d hd hfound =>
    refine iff_of_false ?_ ?_
    · rintro ⟨ack, hack, -⟩
      rw [show d.out = c.out by rcases hd with hd | hd <;> rw [hd]; exact hout] at hack
      simpa using congrArg List.length hack
    · rintro ⟨-, hclone, i, r, ack, hfind, hr, hskb, -⟩
      obtain ⟨-, -, hfail⟩ := hfound i r hfind hr
      rw [← takeSkb_fst, hfail] at hclone
      cases hclone
  | wild i r hfind hr hptr =>
    refine iff_of_false ?_ ?_
    · rintro ⟨ack, hack, -⟩
      cases List.append_cancel_left hack
    · rintro ⟨-, -, i', r', ack', hfind', hr', hskb', -⟩
      cases hfind.symm.trans hfind'
      cases hr.symm.trans hr'
      exact hptr ack' hskb'

/-- An atomic with the PSN of `dup` was executed when its target held `orig`. -/
def ExecutedAtomic (c : Ctx) (dup : Pkt) (orig : ℕ) : Prop :=
  ∃ pkt : Pkt, .exec pkt orig ∈ c.out ∧ pkt.mask.atomic ∧ pkt.psn = dup.psn

/-- In every state a run reaches, a duplicate of an executed atomic that is next in line
leaves memory alone, unless the resource found under its PSN is that of a read: then its region
is cloned as if it were an skb.  It is answered as the original was exactly when it repeats the
request executed last and the response recorded under its PSN holds the same value; that
response is the one to the request before. -/
theorem atomic_replay_iff (c₀ c : Ctx) (ops : List RespOp) (dup : Pkt) (hfresh : Fresh c₀)
    (hrun : respRun c₀ ops = some c) (htame : c.tame) (hdup : DupStart c dup)
    (hnoError : c.qp.resp.gotoError = false)
    (hop : dup.opcode = .rcCompareSwap ∨ dup.opcode = .rcFetchAdd) :
    ∃ c', rxeResponder 5 c = some (true, c') ∧ (c'.tame ↔ FindsResponse c dup) ∧
      (c'.tame → c'.dev = c.dev) ∧ ∀ orig, ExecutedAtomic c dup orig →
        (Answered c c' dup orig ↔ AnswerRecorded c dup orig) ∧
        (AnswerRecorded c dup orig → ∃ prev : Pkt, .exec prev orig ∈ c.out ∧
          prev.mask.atomic ∧ psnMask (prev.psn + 1) = psnMask dup.psn) := by
  have hring := atomicRec_run hfresh hrun
  set c₁ : Ctx := { c with qp.resp.aethSyndrome := aethAckUnlimited } with hc₁
  have hbranch : duplicateRequest c₁ dup = (.cleanup, duplicateAtomic c₁ dup) := by
    rcases hop with hop | hop <;> simp [duplicateRequest, Pkt.mask, hop, rxeOpcodeMask]
  have hcall := call_duplicate hdup hc₁ 2
  rw [hbranch] at hcall
  obtain ⟨hdev, herr, hwild⟩ := duplicateAtomic_frame c₁ dup
  exact ⟨_, hcall.trans (run_cleanup _ (herr.trans hnoError)), hwild htame, fun _ => hdev,
    fun orig _ => ⟨duplicateAtomic_answered dup orig (c := c₁) hring,
      AnswerRecorded.previous hring⟩⟩

/-- An RC responder with two resources for atomics. -/
def atomicQp : Ctx :=
  { qp :=
      { type := .rc
        sq := ⟨[], []⟩
        rq := ⟨[], [{}]⟩
        attr := { maxRdAtomic := 2, qpAccessFlags := [.remoteAtomic] }
        resp := { state := .ready, resources := [{}, {}] } }
    dev := { mem := fun i => if i = 1 then some dmaRegion else none } }

/-- Add `n` to the word at address 8. -/
def fetchAdd (psn n : ℕ) : Pkt :=
  { opcode := .rcFetchAdd, psn, ackReq := true,
    atmeth := { va := 8, rkey := 0x100, swapAdd := n, comp := 0 } }

/-- The value a response to an atomic carries, with its PSN. -/
def atomicAcks (es : List Event) : List (ℕ × ℕ) :=
  es.filterMap fun
    | .sendResp ack =>
      if ack.opcode = .rcAtomicAcknowledge then some (ack.psn, ack.atmack) else none
    | _ => none

/-- Two atomics at PSNs 0 and 1 find 0 and 5 in memory.  A duplicate of the first is not
answered, and a duplicate of the second is answered with the value the first one found. -/
theorem atomic_replay_wrong :
    ∃ c₁ c₂ c₃,
      respRun atomicQp [.recv (fetchAdd 0 5), .task 20, .recv (fetchAdd 1 7), .task 20] = some c₁ ∧
      respRun c₁ [.recv (fetchAdd 0 5), .task 20] = some c₂ ∧
      respRun c₂ [.recv (fetchAdd 1 7), .task 20] = some c₃ ∧
      atomicAcks c₁.out = [(0, 0), (1, 5)] ∧ atomicAcks c₂.out = [(0, 0), (1, 5)] ∧
      atomicAcks c₃.out = [(0, 0), (1, 5), (1, 0)] :=
  ⟨_, _, _, rfl, rfl, rfl, by decide, by decide, by decide⟩

/-- Two atomics that find the same value: the duplicate of the second is answered rightly,
with the response to the first. -/
theorem atomic_replay_same :
    ∃ c c', respRun atomicQp [.recv (fetchAdd 0 0), .task 20, .recv (fetchAdd 1 0), .task 20,
        .recv (fetchAdd 1 0)] = some c ∧
      rxeResponder 5 c = some (true, c') ∧ c'.dev = c.dev ∧ Answered c c' (fetchAdd 1 0) 0 := by
  obtain ⟨c, hc⟩ : ∃ c, respRun atomicQp [.recv (fetchAdd 0 0), .task 20, .recv (fetchAdd 1 0),
      .task 20, .recv (fetchAdd 1 0)] = some c := ⟨_, rfl⟩
  have hfresh : Fresh atomicQp := ⟨rfl, by decide⟩
  have hdup : DupStart c (fetchAdd 1 0) := by
    cases hc
    exact ⟨rfl, rfl, rfl, rfl, rfl, by decide⟩
  obtain ⟨c', hcall, htame, hdev, hiff⟩ := atomic_replay_iff atomicQp c _ (fetchAdd 1 0) hfresh hc
    (by cases hc; decide) hdup (by cases hc; rfl) (Or.inr rfl)
  have hfinds : FindsResponse c (fetchAdd 1 0) := by
    intro i r hi hr
    cases hc
    cases hi
    cases hr
    exact ⟨_, rfl⟩
  refine ⟨c, c', hc, hcall, hdev (htame.2 hfinds), (hiff 0 ?_).1.2 ?_⟩
  · cases hc
    exact ⟨fetchAdd 1 0, List.mem_of_getElem? (i := 4) rfl, rfl, rfl⟩
  · cases hc
    exact ⟨rfl, rfl, 0, _, _, rfl, rfl, rfl, rfl⟩

end Rxe
