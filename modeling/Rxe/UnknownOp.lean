/-
Packets with an unknown opcode.

An opcode without an entry in the `rxe_opcode` table has an empty mask, so `rxe_rcv` takes the
packet for a response and queues it to the completer.  The completer compares its PSN with the
oldest WQE before it looks at the opcode.

* `Harmless` — the states in which the completer does nothing for the packet;
* `unknown_opcode_harmless_iff` — in exactly these the send side is as before;
* `unknown_opcode_completes` — a packet with the next PSN completes a send.
-/
import Rxe.PassFrame
import Rxe.Recv
import Rxe.SendShape

namespace Rxe

variable {c : Ctx} {p : Pkt} {w : SendWqe} {s s' : CompCfg} {r : CompState × Ctx}

/-! ### Retired WQEs -/

theorem SendSide.length_le {c' : Ctx} (h : SendSide c c') :
    c'.qp.sq.live.length ≤ c.qp.sq.live.length := by
  obtain ⟨gone, es, -, -, hqueued, -⟩ := h.order
  have hlen := congrArg List.length hqueued
  unfold Ctx.queued at hlen
  rw [List.length_append, List.length_map, List.length_map] at hlen
  omega

theorem compRun_length {n : ℕ} {r : Bool × Ctx}
    (hrun : Loop.run compStep n s = some r) :
    r.2.qp.sq.live.length ≤ s.c.qp.sq.live.length := by
  refine Loop.run_inv (I := fun s' : CompCfg => s'.c.qp.sq.live.length ≤ s.c.qp.sq.live.length)
    (Q := fun r => r.2.qp.sq.live.length ≤ s.c.qp.sq.live.length) ?_ ?_ le_rfl hrun
  · intro s₁ s₂ hle hstep
    have hside := compStep_rel sideRel s₁
    rw [hstep] at hside
    exact hside.length_le.trans hle
  · intro s₁ r hle hstep
    have hside := compStep_rel sideRel s₁
    rw [hstep] at hside
    exact hside.length_le.trans hle

theorem compRun_retires {n : ℕ} {state : CompState}
    {r : Bool × Ctx} (hrun : Loop.run compStep n ⟨state, some p, c⟩ = some r)
    (hstate : state = .compWqe ∨ state = .compAck ∨ state = .error) (hw : c.sqHead = some w) :
    r.2.qp.sq.live.length < c.qp.sq.live.length := by
  obtain ⟨rest, hlive⟩ := Ctx.live_of_head hw
  have hpos : c.qp.sq.live.length - 1 < c.qp.sq.live.length := by
    rw [hlive, List.length_cons]
    omega
  -- each of the three states drops the oldest WQE in its first step, and no later step adds one
  cases n with
  | zero => cases hrun
  | succ n =>
    rcases hstate with rfl | rfl | rfl
    · have hstep : compStep ⟨.compWqe, some p, c⟩ =
          .inl ⟨.getWqe, some p, (completeWqe c (some p)).2⟩ := rfl
      rw [Loop.run_succ_inl hstep] at hrun
      exact (compRun_length hrun).trans_lt ((completeWqe_length c (some p)).trans_lt hpos)
    · have hstep : compStep ⟨.compAck, some p, c⟩ =
          .inl ⟨(completeAck c p w).1, some p, (completeAck c p w).2⟩ := by
        unfold compStep CompCfg.withPktWqe
        rw [hw]
        rfl
      rw [Loop.run_succ_inl hstep] at hrun
      exact (compRun_length hrun).trans_lt ((completeAck_length c p w).trans_lt hpos)
    · cases hrun
      exact (rxeQpError_rel sideRel.coarse _).length_le.trans_lt
        ((doComplete_length c).trans_lt hpos)

/-! ### What the packet does -/

/-- A completion, or a completion the CQ had no room for. -/
def Event.cqe? : Event → Option Event
  | .sendCqe wc w => some (.sendCqe wc w)
  | .recvCqe wc solicited => some (.recvCqe wc solicited)
  | .cqErr => some .cqErr
  | _ => none

/-- The send side of a QP: the send queue and where the requester is in it, `comp.psn` and
`comp.opcode`, the credits, whether the requester is to go back, the state, and the CQs. -/
def Ctx.sendView (c : Ctx) :
    RingBuf SendWqe × ℕ × ℕ × Option Opcode × ℤ × Bool × QpState × List Event :=
  (c.qp.sq, c.qp.req.wqeIndex, c.qp.comp.psn, c.qp.comp.opcode, c.qp.req.rdAtomic,
    c.qp.req.needRetry, c.qp.req.state, seen Event.cqe? c)

theorem Ctx.sendView_ne {c' : Ctx} (h : c'.qp.sq.live.length < c.qp.sq.live.length) :
    c'.sendView ≠ c.sendView :=
  fun heq => absurd (congrArg (fun v => v.1.live.length) heq) (Nat.ne_of_lt h)

/-- A retry is left, and there is nothing to send again. -/
def Ctx.retriesNothing (c : Ctx) : Prop :=
  0 < c.qp.comp.retryCnt ∧ ¬ 0 < psnCompare c.qp.req.psn c.qp.comp.psn

/-- The WQE is not touched by an unknown packet with this PSN: it is not finished and the PSN is
past it, or the PSN is before the one the completer waits for and not the last of the WQE, or the
WQE is a read or an atomic and there is nothing to send again. -/
def Ctx.ignores (c : Ctx) (pkt : Pkt) (w : SendWqe) : Prop :=
  (w.state = .processing ∨ w.state = .pending) ∧
    if 0 < psnCompare pkt.psn w.lastPsn then
      w.state = .processing ∨ w.mask.atomicOrRead ∧ c.retriesNothing
    else if psnCompare pkt.psn c.qp.comp.psn < 0 then pkt.psn ≠ w.lastPsn
    else 0 < psnCompare pkt.psn c.qp.comp.psn ∧ w.mask.atomicOrRead ∧ c.retriesNothing

/-- The completer waits for a retry, there is no WQE that has been sent from, or the oldest one
is not touched. -/
def Harmless (c : Ctx) (pkt : Pkt) : Prop :=
  c.qp.req.needRetry ∨ ∀ w, c.sqHead = some w → w.state = .posted ∨ c.ignores pkt w

section Effect

variable {c : Ctx} {pkt : Pkt} {w : SendWqe} {n : ℕ} {r : Bool × Ctx}

theorem errorRetry_view (hrun : Loop.run compStep (n + 2) ⟨.errorRetry, some pkt, c⟩ = some r)
    (hw : c.sqHead = some w) (hposted : w.state ≠ .posted) (hretry : c.qp.req.needRetry = false) :
    r.2.sendView = c.sendView ↔ c.retriesNothing := by
  by_cases hcnt : 0 < c.qp.comp.retryCnt
  · have hstep : compStep ⟨.errorRetry, some pkt, c⟩ = .inr (false, compErrorRetry c) := by
      unfold compStep
      rw [hw]
      dsimp only
      rw [if_neg hposted, if_pos hcnt]
    rw [Loop.run_succ_inr hstep] at hrun
    cases hrun
    unfold compErrorRetry
    dsimp only
    split
    · next hpsn =>
      refine ⟨fun heq => ?_, fun h => absurd hpsn h.2⟩
      have hneed : true = c.qp.req.needRetry := congrArg (fun v => v.2.2.2.2.2.1) heq
      rw [hretry] at hneed
      cases hneed
    · next hpsn => exact ⟨fun _ => ⟨hcnt, hpsn⟩, fun _ => rfl⟩
  · have hstep : compStep ⟨.errorRetry, some pkt, c⟩ =
        .inl ⟨.error, some pkt, setStatus c 0 .retryExcErr⟩ := by
      unfold compStep
      rw [hw]
      dsimp only
      rw [if_neg hposted, if_neg hcnt]
      rfl
    rw [Loop.run_succ_inl hstep] at hrun
    -- the retries are used up: the WQE is completed with an error, so the queue gets shorter
    have hhead : (setStatus c 0 .retryExcErr).sqHead = some { w with status := .retryExcErr } := by
      rw [setStatus, Ctx.sqHead_setWqe, hw]
      rfl
    have hless := compRun_retires hrun (Or.inr (Or.inr rfl)) hhead
    have hlen : (setStatus c 0 .retryExcErr).qp.sq.live.length = c.qp.sq.live.length :=
      RingBuf.modify_live_length _ _ _
    rw [hlen] at hless
    exact ⟨fun heq => absurd heq (Ctx.sendView_ne hless), fun h => absurd h.1 hcnt⟩

theorem checkPsn_view (hrun : Loop.run compStep (n + 4) ⟨.checkPsn, some pkt, c⟩ = some r)
    {code : ℕ} (hop : pkt.opcode = .undefined code) (hw : c.sqHead = some w)
    (hstate : w.state = .processing ∨ w.state = .pending) (hretry : c.qp.req.needRetry = false) :
    r.2.sendView = c.sendView ↔ c.ignores pkt w := by
  have hposted : w.state ≠ .posted := by
    rcases hstate with h | h <;> rw [h] <;> nofun
  have hstep : compStep ⟨.checkPsn, some pkt, c⟩ =
      .inl ⟨(compCheckPsn c pkt w).1, some pkt, (compCheckPsn c pkt w).2⟩ := by
    unfold compStep CompCfg.withPktWqe
    rw [hw]
    rfl
  rw [Loop.run_succ_inl hstep] at hrun
  have hretired : ∀ {n state c₁}, Loop.run compStep n ⟨state, some pkt, c₁⟩ = some r →
      (state = .compWqe ∨ state = .compAck ∨ state = .error) → c₁.qp.sq = c.qp.sq →
      r.2.sendView ≠ c.sendView := by
    intro n state c₁ hrun hstate hsq
    refine Ctx.sendView_ne ?_
    rw [← hsq]
    refine compRun_retires hrun hstate (w := w) ?_
    unfold Ctx.sqHead
    rw [hsq]
    exact hw
  have hdone : ∀ {n}, Loop.run compStep (n + 1) ⟨.done, some pkt, c⟩ = some r →
      r.2.sendView = c.sendView := by
    intro n hrun
    cases hrun
    rfl
  have hout := compCheckPsn_outcome c pkt w
  unfold Ctx.ignores
  generalize compCheckPsn c pkt w = o at hout hrun
  cases hout with
  | lost hpast hpend hmask =>
    rw [if_pos hpast, errorRetry_view hrun hw hposted hretry]
    refine ⟨fun h => ⟨hstate, Or.inr ⟨hmask, h⟩⟩, fun h => ?_⟩
    rcases h.2 with hproc | h
    · rw [hpend] at hproc
      cases hproc
    · exact h.2
  | implied hpast hpend hmask =>
    rw [if_pos hpast]
    refine ⟨fun heq => absurd heq (hretired hrun (Or.inl rfl) rfl), fun h => ?_⟩
    rcases h.2 with hproc | h
    · rw [hpend] at hproc
      cases hproc
    · rw [hmask] at h
      cases h.1
  | early hpast hpend =>
    rw [if_pos hpast]
    exact ⟨fun _ => ⟨hstate, Or.inl (hstate.resolve_right hpend)⟩, fun _ => hdone hrun⟩
  | again hpast hbefore hlast =>
    rw [if_neg hpast, if_pos hbefore]
    exact ⟨fun heq => absurd heq (hretired hrun (Or.inr (Or.inl rfl)) rfl),
      fun h => absurd hlast h.2⟩
  | old hpast hbefore hlast =>
    rw [if_neg hpast, if_pos hbefore]
    exact ⟨fun _ => ⟨hstate, hlast⟩, fun _ => hdone hrun⟩
  | skipped hpast hskip hmask =>
    rw [if_neg hpast, if_neg (by omega), errorRetry_view hrun hw hposted hretry]
    exact ⟨fun h => ⟨hstate, hskip, hmask, h⟩, fun h => h.2.2.2⟩
  | current hpast hbefore hnext =>
    rw [if_neg hpast, if_neg hbefore]
    refine ⟨fun heq => absurd heq ?_, fun h => absurd ⟨h.2.1, h.2.2.1⟩ hnext⟩
    -- no case of `check_ack` is for the opcode
    have herror : checkAck c pkt w = (.error, c) := by
      unfold checkAck
      dsimp only
      rw [hop]
      split <;> rfl
    have hstep : compStep ⟨.checkAck, some pkt, c⟩ = .inl ⟨.error, some pkt, c⟩ := by
      unfold compStep CompCfg.withPktWqe
      rw [hw]
      exact congrArg (CompCfg.goto ⟨.checkAck, some pkt, c⟩) herror
    rw [Loop.run_succ_inl hstep] at hrun
    exact hretired hrun (Or.inr (Or.inr rfl)) rfl

theorem rxeCompleter_unknown {code : ℕ} {pkts : List Pkt} (hop : pkt.opcode = .undefined code)
    (hpkts : c.qp.respPkts = pkt :: pkts) (hvalid : c.qp.valid) (herr : c.qp.req.state ≠ .error)
    (hreset : c.qp.req.state ≠ .reset) (hcall : rxeCompleter c = some r) :
    r.2.sendView = c.sendView ↔ Harmless c pkt := by
  unfold Harmless
  rcases rxeCompleter_cases hcall with ⟨hno, -⟩ | ⟨hno, -⟩ | ⟨-, hretry, rfl⟩ |
    ⟨-, -, -, hretry, hrun⟩
  · rcases hno with hno | hno
    · rw [hvalid] at hno
      cases hno
    · exact absurd hno hreset
  · exact absurd hno herr
  · exact ⟨fun _ => Or.inl hretry, fun _ => rfl⟩
  · -- the packet is taken, and then the oldest WQE is looked at
    let c₁ : Ctx := { compEnter c with qp.respPkts := pkts, qp.comp.timeoutRetry := false }
    have hack : compStep ⟨.getAck, none, compEnter c⟩ = .inl ⟨.getWqe, some pkt, c₁⟩ := by
      unfold compStep
      rw [show (compEnter c).qp.respPkts = pkt :: pkts from hpkts]
    have hget : compStep ⟨.getWqe, some pkt, c₁⟩ = .inl ⟨getWqe c₁ (some pkt), some pkt, c₁⟩ := rfl
    have hfuel : compFuel (compEnter c) = 3 * c.qp.sq.live.length + 2 + 4 + 2 := by
      rfl
    rw [hfuel, Loop.run_succ_inl hack, Loop.run_succ_inl hget] at hrun
    have hview : c₁.sendView = c.sendView := rfl
    have hneed : ¬ c.qp.req.needRetry = true := by
      rw [hretry]
      nofun
    rw [← hview]
    cases hw : c.sqHead with
    | none =>
      have hdone : getWqe c₁ (some pkt) = .done := by
        unfold getWqe
        rw [show c₁.sqHead = none from hw]
        rfl
      rw [hdone] at hrun
      cases hrun
      exact ⟨fun _ => Or.inr (fun w h => nomatch h), fun _ => rfl⟩
    | some w =>
      have hhead : c₁.sqHead = some w := hw
      -- the queue has a head, so only its own state and PSN decide
      have hiff : (c.qp.req.needRetry = true ∨
          ∀ w', some w = some w' → w'.state = .posted ∨ c.ignores pkt w') ↔
          w.state = .posted ∨ c.ignores pkt w := by
        refine ⟨fun h => (h.resolve_left hneed) w rfl, fun h => Or.inr ?_⟩
        rintro _ ⟨⟩
        exact h
      rw [hiff]
      unfold getWqe at hrun
      rw [hhead] at hrun
      dsimp only at hrun
      cases hws : w.state with
      | posted =>
        rw [hws] at hrun
        cases hrun
        exact ⟨fun _ => Or.inl rfl, fun _ => rfl⟩
      | done =>
        rw [hws] at hrun
        refine ⟨fun heq =>
          absurd heq (Ctx.sendView_ne (compRun_retires hrun (Or.inl rfl) hhead)), ?_⟩
        rintro (h | ⟨h, -⟩)
        · cases h
        · rcases h with h | h <;> rw [hws] at h <;> cases h
      | error =>
        rw [hws] at hrun
        refine ⟨fun heq => absurd heq
          (Ctx.sendView_ne (compRun_retires hrun (Or.inr (Or.inr rfl)) hhead)), ?_⟩
        rintro (h | ⟨h, -⟩)
        · cases h
        · rcases h with h | h <;> rw [hws] at h <;> cases h
      | processing =>
        rw [hws] at hrun
        rw [checkPsn_view hrun hop hhead (Or.inl hws) hretry]
        exact ⟨Or.inr, fun h => h.resolve_left nofun⟩
      | pending =>
        rw [hws] at hrun
        rw [checkPsn_view hrun hop hhead (Or.inr hws) hretry]
        exact ⟨Or.inr, fun h => h.resolve_left nofun⟩

end Effect

/-! ### The receive path -/

/-- A received packet whose opcode has no entry in the table is queued to the completer.  When
the completer of a QP that is in use comes to it, the send side is afterwards as it was exactly
in the states `Harmless` names; a QP that is not drops it unread. -/
theorem unknown_opcode_harmless_iff (rxe : RcvDev) (skb : RcvSkb) (clones : List Bool)
    (d : Delivery) (c : Ctx) (pkt : Pkt) (pkts : List Pkt) (hrcv : d ∈ rxeRcv rxe skb clones)
    (hunknown : opcodeOf d.pkt.opcode = .undefined d.pkt.opcode)
    (hpkt : pkt.opcode = opcodeOf d.pkt.opcode ∧ pkt.psn = d.pkt.psn)
    (hpkts : c.qp.respPkts = pkt :: pkts) :
    d.toResponder = false ∧
      (∀ c₀ : Ctx, (rxeCompQueuePkt c₀ pkt).sendView = c₀.sendView) ∧
      (c.qp.valid → c.qp.req.state ≠ .error → c.qp.req.state ≠ .reset →
        ∃ r, rxeCompleter c = some r ∧ (r.2.sendView = c.sendView ↔ Harmless c pkt)) ∧
      (c.qp.valid = false ∨ c.qp.req.state = .error ∨ c.qp.req.state = .reset →
        rxeCompleter c = rxeCompleter { c with qp.respPkts := [] }) := by
  have hop : pkt.opcode = .undefined d.pkt.opcode := hpkt.1.trans hunknown
  refine ⟨?_, fun c₀ => ?_, fun hvalid herr hreset => ?_, fun hno => ?_⟩
  · rw [(rxeRcv_mem hrcv).2]
    unfold PktInfo.hdrMask
    rw [hunknown]
    rfl
  · unfold rxeCompQueuePkt Ctx.sendView
    rw [seen_emit _ rfl]
    rfl
  · obtain ⟨r, hcall⟩ := Option.isSome_iff_exists.1 (rxeCompleter_isSome c)
    exact ⟨r, hcall, rxeCompleter_unknown hop hpkts hvalid herr hreset hcall⟩
  -- both ways out empty the queue of packets, whatever is in it
  · have hdrop : compDrop c = compDrop { c with qp.respPkts := [] } := rfl
    have hflush : compFlush c = compFlush { c with qp.respPkts := [] } := rfl
    unfold rxeCompleter
    by_cases hvalid : c.qp.valid = false
    · rw [if_pos hvalid, if_pos hvalid, hdrop]
    · rw [if_neg hvalid, if_neg hvalid]
      by_cases herr : c.qp.req.state = .error
      · rw [if_pos herr, if_pos herr, hflush]
      · have hreset := (hno.resolve_left hvalid).resolve_left herr
        rw [if_neg herr, if_neg herr, if_pos hreset, if_pos hreset, hdrop]

/-- The headers of a packet with opcode 0x15 and PSN 1 for QP 2. -/
def unknownHdr (i : ℕ) : UInt8 := if i = 40 then 0x15 else if i = 51 then 1 else rcvHdr 16 i

/-- A send of `lastPsn + 1` packets has been sent, of which `psn` are acknowledged; the packet
has arrived. -/
def unknownQp (lastPsn psn : ℕ) : Ctx :=
  { qp := { type := .rc, req := { state := .ready, psn := lastPsn + 1, wqeIndex := 1 },
            rq := ⟨[], [{}]⟩, comp := { retryCnt := 7, psn },
            sq :=
              ⟨[{ ibwr := orderWr, state := .pending, ssn := 1, lastPsn }], [{ ibwr := orderWr }]⟩
            respPkts := [{ opcode := .undefined 0x15, psn := 1 }] } }

set_option maxRecDepth 4096 in
/-- PSN 1 has been acknowledged, and is not the last of the send: nothing happens. -/
theorem unknown_opcode_harmless_old :
    ∃ d ∈ rxeRcv rcvDev ⟨.net, unknownHdr, 56, 1⟩ [], d.toResponder = false ∧
      ∃ r, rxeCompleter (unknownQp 5 3) = some r ∧ r.2.sendView = (unknownQp 5 3).sendView := by
  have hiff := unknown_opcode_harmless_iff rcvDev ⟨.net, unknownHdr, 56, 1⟩ []
    _ (unknownQp 5 3) { opcode := .undefined 0x15, psn := 1 } []
    (List.mem_singleton.2 rfl) rfl ⟨rfl, rfl⟩ rfl
  have hharmless : Harmless (unknownQp 5 3) { opcode := .undefined 0x15, psn := 1 } := by
    right
    rintro w ⟨⟩
    refine Or.inr ⟨Or.inr rfl, ?_⟩
    rw [if_neg (by decide), if_pos (by decide)]
    decide
  obtain ⟨r, hcall, hview⟩ := hiff.2.2.1 rfl nofun nofun
  exact ⟨_, List.mem_singleton.2 rfl, hiff.1, r, hcall, hview.2 hharmless⟩

set_option maxRecDepth 4096 in
/-- A packet with opcode 0x15 and PSN 1, one past a send: the send is completed. -/
theorem unknown_opcode_completes :
    ∃ d ∈ rxeRcv rcvDev ⟨.net, unknownHdr, 56, 1⟩ [],
      opcodeOf d.pkt.opcode = .undefined 0x15 ∧ d.pkt.psn = 1 ∧ d.toResponder = false ∧
      ∃ r, rxeCompleter (unknownQp 0 0) = some r ∧ r.2.qp.sq.live = [] ∧
        (sendCqes r.2.out).map (fun p => p.1.status) = [.success] :=
  ⟨_, List.mem_singleton.2 rfl, rfl, rfl, rfl, _, rfl, rfl, rfl⟩

end Rxe
