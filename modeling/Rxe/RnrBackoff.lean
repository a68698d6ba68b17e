/-
The wait after an RNR NAK.

`COMPST_RNR_RETRY` only sets `need_retry` and starts `rnr_nak_timer`; the retry is the first
thing the requester does when it is run the next time, and the timer is one of several that
run it.  In a run here the requester is called when its task is scheduled: by the timer, by
posted requests, by the completer, by a drain, or by `account_skb` when it waits for a send
buffer.

* `Backoff` — while the timer runs, the requester is not scheduled and a retry is wanted, or
  the QP processes no requests;
* `rnr_backoff` — in every run in which nothing else schedules the requester in that time, it
  sends no request before the timer fires;
* `rnr_backoff_broken` — a request posted meanwhile runs it.
-/
import Rxe.SendShape

namespace Rxe

/-! ### The system -/

/-- The timer for an RNR NAK is started. -/
def Event.rnrTimer? : Event → Option ℕ
  | .modRnrNakTimer t => some t
  | _ => none

theorem rnrTimer_deaf : Deaf Event.rnrTimer? :=
  ⟨⟨fun _ _ => rfl, rfl, fun _ _ => rfl, rfl, rfl, rfl, rfl⟩, rfl⟩

/-- The completer has accepted an RNR NAK between two states. -/
def accepts (c c' : Ctx) : Bool := seen Event.rnrTimer? c' ≠ seen Event.rnrTimer? c

/-- The requester has been scheduled between two states. -/
def schedules (c c' : Ctx) : Bool := .runReq ∈ c'.out.drop c.out.length

/-- `account_skb` for a request the arbiter is done with. -/
def accountReqSkb (c : Ctx) : Ctx :=
  let c := { c with qp.reqSkbOut := c.qp.reqSkbOut - 1 }
  if c.qp.needReqSkb ∧ c.qp.reqSkbOut < c.par.maxSkbPerQp then c.emit .runReq else c

/-- The send side of a QP, whether its requester is scheduled, and whether an RNR NAK has been
accepted whose timer has not fired. -/
structure RnrSys where
  c : Ctx
  pend : Bool := false
  waiting : Bool := false

inductive RnrAct
  | send (a : SendAct)
  /-- the timer fires -/
  | rnrNakTimer
  /-- the arbiter is done with a request -/
  | accountSkb

/-- A step of the system.  A requester that returns 0 is called again, as is one that was
scheduled during the call. -/
def rnrStep (k : RnrSys) : RnrAct → Option RnrSys
  | .send .requester =>
    if k.pend then
      (rxeRequester k.c).map fun r =>
        { c := r.2, pend := r.1 || schedules k.c r.2, waiting := k.waiting || accepts k.c r.2 }
    else none
  | .send a =>
    (sendAct k.c a).map fun c =>
      { c, pend := k.pend || schedules k.c c, waiting := k.waiting || accepts k.c c }
  | .rnrNakTimer =>
    if k.waiting then some { c := k.c.emit .runReq, pend := true, waiting := false } else none
  | .accountSkb =>
    some { k with c := accountReqSkb k.c, pend := k.pend || schedules k.c (accountReqSkb k.c) }

/-- The QP processes requests. -/
def Ctx.alive (c : Ctx) : Prop := c.qp.valid ∧ c.qp.req.state ≠ .error ∧ c.qp.req.state ≠ .reset

/-- The event does not schedule the requester of a QP, nor bring the QP back to life. -/
def calm (c : Ctx) : RnrAct → Prop
  | .send (.post _) => ¬ (c.alive ∧ c.qp.req.state ≠ .init)
  | .send (.modify a) =>
    (a.qpState = some .init ∨ a.qpState = some .rts → c.alive) ∧
      (a.qpState = some .sqd → c.qp.req.state = .drained)
  | .accountSkb => ¬ (c.qp.needReqSkb ∧ c.qp.reqSkbOut - 1 < c.par.maxSkbPerQp)
  | _ => True

/-- While the timer runs, nothing else schedules the requester, and it is not scheduled when
the NAK is accepted. -/
def RnrOk (k : RnrSys) (a : RnrAct) : Prop :=
  (k.waiting → calm k.c a) ∧
    ∀ k', rnrStep k a = some k' → accepts k.c k'.c →
      a = .send .completer ∧ k.pend = false ∧ schedules k.c k'.c = false

/-! ### While the timer runs -/

/-- While the timer runs, a retry is wanted and the requester is not scheduled, or it would do
nothing. -/
structure Backoff (k : RnrSys) : Prop where
  rc : k.c.qp.type = .rc
  wait : k.waiting → (k.c.qp.req.needRetry ∧ k.pend = false) ∨ ¬ k.c.alive

/-- What decides whether the requester would do something. -/
def rnrView (c : Ctx) : Bool × QpState × Bool := (c.qp.valid, c.qp.req.state, c.qp.req.needRetry)

section Step

variable {c c' : Ctx}

theorem alive_of_view (h : rnrView c' = rnrView c) (hc' : c'.alive) : c.alive := by
  simp only [rnrView, Prod.mk.injEq] at h
  obtain ⟨hvalid, hstate, -⟩ := h
  unfold Ctx.alive at hc' ⊢
  rwa [hvalid, hstate] at hc'

theorem not_schedules_of_out {es : List Event} (h : c'.out = c.out ++ es) (hes : .runReq ∉ es) :
    schedules c c' = false := by
  unfold schedules
  rw [h, List.drop_left]
  simpa using hes

theorem not_schedules_of_eq (h : c'.out = c.out) : schedules c c' = false :=
  not_schedules_of_out (h.trans (List.append_nil _).symm) List.not_mem_nil

theorem Backoff.quiet {k : RnrSys} (h : Backoff k) (hrc : c'.qp.type = .rc)
    (hview : rnrView c' = rnrView k.c) (hquiet : schedules k.c c' = false) :
    Backoff { c := c', pend := k.pend || schedules k.c c', waiting := k.waiting } := by
  refine ⟨hrc, fun hwait => ?_⟩
  rcases h.wait hwait with ⟨hretry, hpend⟩ | hdead
  · simp only [rnrView, Prod.mk.injEq] at hview
    exact Or.inl ⟨hview.2.2.trans hretry, by rw [hpend, hquiet]; rfl⟩
  · exact Or.inr fun halive => hdead (alive_of_view hview halive)

theorem Backoff.dead {c' : Ctx} (pend waiting : Bool) (hrc : c'.qp.type = .rc)
    (hdead : ¬ c'.alive) :
    Backoff { c := c', pend, waiting } :=
  ⟨hrc, fun _ => Or.inr hdead⟩

theorem rxeCompleter_waiting {r : Bool × Ctx} (h : c.qp.req.needRetry ∨ ¬ c.alive)
    (hcall : rxeCompleter c = some r) :
    (¬ c.alive ∧ ¬ r.2.alive) ∨ r.2 = compEnter c := by
  rcases rxeCompleter_cases hcall with ⟨hdrop, rfl⟩ | ⟨herr, rfl⟩ | ⟨-, -, rfl⟩ |
    ⟨hvalid, herr, hreset, hretry, -⟩
  · left
    rcases hdrop with hno | hreset
    · have hvalid : (compDrop c).qp.valid = c.qp.valid :=
        congrArg (fun f => f.2.1) (fixedRel.drop (c := c) trivial (Or.inl hno))
      exact ⟨fun halive => Bool.false_ne_true (hno.symm.trans halive.1),
        fun halive => Bool.false_ne_true ((hvalid.trans hno).symm.trans halive.1)⟩
    · exact ⟨fun halive => halive.2.2 hreset,
        fun halive => halive.2.2 ((dropSq_reqState _ _).trans hreset)⟩
  · exact Or.inl ⟨fun halive => halive.2.1 herr,
      fun halive => halive.2.1 ((compFlush_reqState c).trans herr)⟩
  · exact Or.inr rfl
  · rcases h with hneed | hdead
    · rw [hretry] at hneed
      cases hneed
    · exact absurd ⟨hvalid, herr, hreset⟩ hdead

theorem rxeRequester_dead {r : Bool × Ctx} (hrc : c.qp.type = .rc) (hdead : ¬ c.alive)
    (hcall : rxeRequester c = some r) : ¬ r.2.alive ∧ r.2.out = c.out := by
  obtain ⟨b, c'⟩ := r
  rcases rxeRequester_cases hrc hcall with ⟨-, rfl⟩ | ⟨hreset, rfl⟩ | ⟨hvalid, herr, hreset, -⟩
  · exact ⟨hdead, rfl⟩
  · exact ⟨fun halive => halive.2.2 hreset, rfl⟩
  · exact absurd ⟨hvalid, herr, hreset⟩ hdead

theorem setQpState_backoff {k : RnrSys} {state : Option IbQpState} (h : Backoff k)
    (hrc : c.qp.type = .rc) (hview : rnrView c = rnrView k.c) (hout : c.out = k.c.out)
    (hlive : k.waiting → state = some .init ∨ state = some .rts → k.c.alive)
    (hsqd : k.waiting → state = some .sqd → k.c.qp.req.state = .drained)
    (hset : setQpState c state = some c') :
    Backoff { c := c', pend := k.pend || schedules k.c c', waiting := k.waiting } := by
  have hrc' := (setQpState_sends hrc hset).1
  have hsame : c'.out = c.out → schedules k.c c' = false := by
    intro h
    exact not_schedules_of_eq (h.trans hout)
  -- INIT and RTS make a stopped requester run again, which `hlive` excludes
  have hrevive : ∀ s, (state = some .init ∨ state = some .rts) →
      c' = { c with qp.req.state := s, qp.resp.state := c'.qp.resp.state } →
      Backoff { c := c', pend := k.pend || schedules k.c c', waiting := k.waiting } := by
    intro s hs hc'
    refine ⟨hrc', fun hwait => Or.inl ?_⟩
    simp only [rnrView, Prod.mk.injEq] at hview
    rcases h.wait hwait with ⟨hretry, hpend⟩ | hdead
    · refine ⟨?_, ?_⟩
      · rw [hc']
        exact hview.2.2.trans hretry
      · rw [hpend, hsame (by rw [hc'])]
        rfl
    · exact absurd (hlive hwait hs) hdead
  rcases setQpState_cases hset with ⟨-, hreset⟩ | ⟨-, rfl⟩ | ⟨hstate, hdrained, -⟩ |
    ⟨req, resp, rfl, rfl | ⟨hs, -⟩, -⟩
  · obtain ⟨req, resp, sq, rq, pkts, rfl, hreset, -⟩ := rxeQpReset_frame hreset
    exact .dead _ _ hrc' fun halive => halive.2.2 hreset
  · exact .dead _ _ hrc' fun halive => halive.2.1 (rxeQpError_reqState c)
  · refine ⟨hrc', fun hwait => absurd ?_ hdrained⟩
    simp only [rnrView, Prod.mk.injEq] at hview
    exact hview.2.1.trans (hsqd hwait hstate)
  · exact h.quiet hrc' hview (hsame rfl)
  · exact hrevive req hs rfl

end Step

/-! ### Runs -/

section Run

variable {k k' : RnrSys} {a : RnrAct}

theorem rnrStep_send {a : SendAct} (hreq : a ≠ .requester)
    (h : rnrStep k (.send a) = some k') :
    sendAct k.c a = some k'.c ∧ k'.pend = (k.pend || schedules k.c k'.c) ∧
      k'.waiting = (k.waiting || accepts k.c k'.c) := by
  have heq : rnrStep k (.send a) = (sendAct k.c a).map fun c =>
      { c, pend := k.pend || schedules k.c c, waiting := k.waiting || accepts k.c c } := by
    cases a with
    | requester => exact absurd rfl hreq
    | post | completer | recv | timer | error | modify | env => rfl
  rw [heq] at h
  obtain ⟨c, hact, rfl⟩ := Option.map_eq_some_iff.1 h
  exact ⟨hact, rfl, rfl⟩

theorem rnrStep_requester (h : rnrStep k (.send .requester) = some k') :
    k.pend ∧ ∃ r, rxeRequester k.c = some r ∧
      k' = { c := r.2, pend := r.1 || schedules k.c r.2,
             waiting := k.waiting || accepts k.c r.2 } := by
  change (if k.pend then (rxeRequester k.c).map _ else none) = some k' at h
  split at h
  · next hpend =>
    obtain ⟨r, hcall, rfl⟩ := Option.map_eq_some_iff.1 h
    exact ⟨hpend, r, hcall, rfl⟩
  · cases h

theorem rnrStep_timer (h : rnrStep k .rnrNakTimer = some k') :
    k' = { c := k.c.emit .runReq, pend := true, waiting := false } := by
  change (if k.waiting then some _ else none) = some k' at h
  split at h
  · cases h
    rfl
  · cases h

theorem RnrOk.of_step (hstep : rnrStep k a = some k') (hcalm : k.waiting → calm k.c a)
    (h : accepts k.c k'.c → a = .send .completer ∧ k.pend = false ∧ schedules k.c k'.c = false) :
    RnrOk k a := by
  refine ⟨hcalm, fun k'' hstep' => ?_⟩
  cases hstep.symm.trans hstep'
  exact h

theorem RnrOk.not_accepts (hok : RnrOk k a) (hstep : rnrStep k a = some k')
    (ha : a ≠ .send .completer) : accepts k.c k'.c = false := by
  by_contra h
  exact ha (hok.2 k' hstep (by simpa using h)).1

theorem Backoff.send {a : SendAct} {c' : Ctx} (h : Backoff k) (hreq : a ≠ .requester)
    (hcomp : a ≠ .completer) (hcalm : k.waiting → calm k.c (.send a))
    (hact : sendAct k.c a = some c') :
    Backoff { c := c', pend := k.pend || schedules k.c c', waiting := k.waiting } := by
  have hrc' := sendAct_rc h.rc hact
  cases a with
  | post wrs =>
    cases hact
    refine ⟨hrc', fun hwait => ?_⟩
    -- a waiting QP is posted to only while `rxe_post_send` refuses the list
    have hstop : k.c.qp.valid = false ∨ k.c.qp.req.state = .error ∨ k.c.qp.req.state = .reset ∨
        k.c.qp.req.state = .init := by
      by_contra hgo
      simp only [not_or, Bool.not_eq_false] at hgo
      exact hcalm hwait ⟨⟨hgo.1, hgo.2.1, hgo.2.2.1⟩, hgo.2.2.2⟩
    have hsame : (rxePostSend k.c wrs).2 = k.c := by
      unfold rxePostSend
      rw [if_pos hstop]
    rw [hsame]
    exact (h.quiet h.rc rfl (not_schedules_of_eq rfl)).wait hwait
  | requester => exact absurd rfl hreq
  | completer => exact absurd rfl hcomp
  | recv pkt =>
    cases hact
    exact h.quiet hrc' rfl (not_schedules_of_out rfl (by simp))
  | timer =>
    cases hact
    unfold retransmitTimer
    split
    · exact h.quiet h.rc rfl (not_schedules_of_out rfl (by simp))
    · exact h.quiet h.rc rfl (not_schedules_of_eq rfl)
  | error =>
    cases hact
    exact .dead _ _ hrc' fun halive => halive.2.1 (rxeQpError_reqState k.c)
  | modify attr =>
    obtain ⟨r, hcall, rfl⟩ := Option.map_eq_some_iff.1 hact
    obtain ⟨skb, n, rd, res, head, rfl | ⟨-, hset⟩⟩ := rxeQpFromAttr_cases hcall
    · exact h.quiet hrc' rfl (not_schedules_of_eq rfl)
    · exact setQpState_backoff (c := ringAttrs k.c skb n rd res head attr) h h.rc rfl rfl
        (fun hwait => (hcalm hwait).1) (fun hwait => (hcalm hwait).2) hset
  | env dev skb cq =>
    cases hact
    exact h.quiet h.rc rfl (not_schedules_of_eq rfl)

theorem Backoff.completer {r : Bool × Ctx} (h : Backoff k) (hcall : rxeCompleter k.c = some r)
    (hok : accepts k.c r.2 → k.pend = false ∧ schedules k.c r.2 = false) :
    Backoff { c := r.2, pend := k.pend || schedules k.c r.2,
              waiting := k.waiting || accepts k.c r.2 } := by
  have hrc' : r.2.qp.type = .rc :=
    (congrArg Prod.fst (rxeCompleter_rel fixedRel trivial hcall)).trans h.rc
  refine ⟨hrc', fun hwait => ?_⟩
  by_cases hold : k.waiting
  · -- it returns at once, or the QP is in the error state
    have hneed : k.c.qp.req.needRetry ∨ ¬ k.c.alive := (h.wait hold).imp_left And.left
    rcases rxeCompleter_waiting hneed hcall with ⟨-, hdead⟩ | hsame
    · exact Or.inr hdead
    · exact (h.quiet hrc' (by rw [hsame]; rfl)
        (not_schedules_of_eq (by rw [hsame]; rfl))).wait hold
  · have hnew : accepts k.c r.2 := by
      rcases Bool.or_eq_true_iff.1 hwait with hw | hw
      · exact absurd hw hold
      · exact hw
    obtain ⟨hpend, hquiet⟩ := hok hnew
    rcases rxeCompleter_seen rnrTimer_deaf hcall with hsame | ⟨-, -, hretry⟩
    · exact absurd hsame (of_decide_eq_true hnew)
    · exact Or.inl ⟨hretry, by rw [hpend, hquiet]; rfl⟩

theorem Backoff.step (h : Backoff k) (hok : RnrOk k a) (hstep : rnrStep k a = some k') :
    Backoff k' := by
  cases a with
  | send a =>
    by_cases hreq : a = .requester
    · subst hreq
      have hno := hok.not_accepts hstep nofun
      obtain ⟨hpend, r, hcall, rfl⟩ := rnrStep_requester hstep
      refine ⟨(congrArg Prod.fst (rxeRequester_rel fixedRel trivial hcall)).trans h.rc,
        fun hwait => ?_⟩
      have hold : k.waiting := by
        have hwait : (k.waiting || accepts k.c r.2) = true := hwait
        rwa [hno, Bool.or_false] at hwait
      -- no task is pending while the QP waits, so a requester that runs belongs to a dead QP
      rcases h.wait hold with ⟨-, hquiet⟩ | hdead
      · rw [hpend] at hquiet
        cases hquiet
      · exact Or.inr (rxeRequester_dead h.rc hdead hcall).1
    · obtain ⟨hact, hpend, hwaiting⟩ := rnrStep_send hreq hstep
      obtain ⟨c', pend, waiting⟩ := k'
      dsimp only at hact hpend hwaiting
      subst hpend hwaiting
      by_cases hcomp : a = .completer
      · subst hcomp
        obtain ⟨r, hcall, rfl⟩ := Option.map_eq_some_iff.1 hact
        exact h.completer hcall fun hnew => (hok.2 _ hstep hnew).2
      · have hno := hok.not_accepts hstep fun heq => hcomp (RnrAct.send.inj heq)
        rw [hno, Bool.or_false]
        exact h.send hreq hcomp hok.1 hact
  | rnrNakTimer =>
    rw [rnrStep_timer hstep]
    exact ⟨h.rc, nofun⟩
  | accountSkb =>
    cases hstep
    refine ⟨?_, fun hwait => ?_⟩
    · unfold accountReqSkb
      dsimp only
      split <;> exact h.rc
    · have hsame : accountReqSkb k.c = { k.c with qp.reqSkbOut := k.c.qp.reqSkbOut - 1 } := by
        exact if_neg (hok.1 hwait)
      have hview : rnrView (accountReqSkb k.c) = rnrView k.c := by
        rw [hsame]
        rfl
      have hrc : (accountReqSkb k.c).qp.type = .rc := by
        rw [hsame]
        exact h.rc
      exact (h.quiet hrc hview (not_schedules_of_eq (by rw [hsame]))).wait hwait

theorem Backoff.sends (h : Backoff k) (hwait : k.waiting) (hstep : rnrStep k a = some k') :
    sends k'.c.out = sends k.c.out := by
  cases a with
  | send a =>
    by_cases hreq : a = .requester
    · subst hreq
      obtain ⟨hpend, r, hcall, rfl⟩ := rnrStep_requester hstep
      rcases h.wait hwait with ⟨-, hquiet⟩ | hdead
      · rw [hpend] at hquiet
        cases hquiet
      · exact congrArg Rxe.sends (rxeRequester_dead h.rc hdead hcall).2
    · exact sendAct_sends h.rc hreq (rnrStep_send hreq hstep).1
  | rnrNakTimer =>
    rw [rnrStep_timer hstep]
    exact sends_emit _ rfl
  | accountSkb =>
    cases hstep
    unfold accountReqSkb
    dsimp only
    split
    · exact sends_emit _ rfl
    · rfl

end Run

open Trace in
/-- In every run of an RC QP in which the requester is not scheduled when the completer accepts
an RNR NAK, and is not scheduled by a posted request, a drain or the arbiter while its timer
runs, no step before the timer fires sends a request. -/
theorem rnr_backoff (k₀ k k' : RnrSys) (a : RnrAct) (hrc : k₀.c.qp.type = .rc)
    (hstart : k₀.waiting = false) (hreach : Reach rnrStep RnrOk k₀ k) (hwait : k.waiting)
    (hstep : rnrStep k a = some k') : sends k'.c.out = sends k.c.out := by
  have hinit : Backoff k₀ := by
    refine ⟨hrc, fun hw => ?_⟩
    rw [hstart] at hw
    cases hw
  have hbackoff : Backoff k := Reach.inv hinit (fun _ _ _ h hok hstep => h.step hok hstep) hreach
  exact hbackoff.sends hwait hstep

/-- A QP that may retry once after an RNR NAK. -/
def rnrQp : Ctx := { orderQp with qp.comp.rnrRetry := 1 }

/-- The peer has no receive buffer for the first request. -/
def rnrNak : Pkt := { opcode := .rcAcknowledge, psn := 0, aeth := ⟨aethRnrNak, 0⟩ }

open Trace in
/-- A request is sent, the NAK is accepted, and the retransmission timer expires: a call of the
completer sends nothing. -/
theorem rnr_backoff_timeout :
    ∃ k k', Reach rnrStep RnrOk { c := rnrQp } k ∧ k.waiting ∧
      rnrStep k (.send .completer) = some k' ∧ sends k'.c.out = sends k.c.out := by
  have hrun : ∃ k k', Reach rnrStep RnrOk { c := rnrQp } k ∧ k.waiting ∧
      rnrStep k (.send .completer) = some k' :=
    ⟨_, _, .next (.next (.next (.next (.next (.next .start
      (a := .send (.post [orderWr])) (.of_step rfl nofun nofun) rfl)
      (a := .send .requester) (.of_step rfl nofun nofun) rfl)
      (a := .send .requester) (.of_step rfl nofun nofun) rfl)
      (a := .send (.recv rnrNak)) (.of_step rfl nofun nofun) rfl)
      (a := .send .completer) (.of_step rfl nofun fun _ => ⟨rfl, rfl, rfl⟩) rfl)
      (a := .send .timer) (.of_step rfl (fun _ => trivial) nofun) rfl, rfl, rfl⟩
  obtain ⟨k, k', hreach, hwait, hstep⟩ := hrun
  exact ⟨k, k', hreach, hwait, hstep,
    rnr_backoff { c := rnrQp } k k' (.send .completer) rfl rfl hreach hwait hstep⟩

open Trace in
/-- A request posted while the timer runs: the requester sends the refused request again. -/
theorem rnr_backoff_broken :
    ∃ k k', Reach rnrStep (fun _ _ => True) { c := rnrQp } k ∧ k.waiting ∧
      rnrStep k (.send .requester) = some k' ∧
      (sends k.c.out).map (fun p => p.1.psn) = [0] ∧
      (sends k'.c.out).map (fun p => p.1.psn) = [0, 0] :=
  ⟨_, _, .next (.next (.next (.next (.next (.next .start
    (a := .send (.post [orderWr])) trivial rfl)
    (a := .send .requester) trivial rfl)
    (a := .send .requester) trivial rfl)
    (a := .send (.recv rnrNak)) trivial rfl)
    (a := .send .completer) trivial rfl)
    (a := .send (.post [orderWr])) trivial rfl, rfl, rfl, rfl, rfl⟩

end Rxe
