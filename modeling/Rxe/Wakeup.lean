/-
The requester is woken when what it waits for has happened.

A call of `rxe_requester` that finds no room in the window of PSNs, no credit for a read or
an atomic, or a fence in front of the next WQE, sets a flag and returns.  The completer
clears the flag and schedules the requester at each place where it moves `comp.psn`, gives
back a credit or retires a WQE.

* `reqExit` — what a call of the requester waits for when it returns;
* `Woken` — since that call the requester has been scheduled, or the flag is set and the
  condition still holds;
* `requester_woken` — in every reachable state.
-/
import Rxe.SendRule

namespace Rxe

/-! ### What the requester waits for -/

/-- What a call of the requester can wait for. -/
inductive ReqWait
  | psn | depth | fence
  deriving DecidableEq, Repr

namespace ReqWait

/-- The condition that blocks the requester. -/
def blocks : ReqWait → Ctx → Prop
  | .psn, c => 0 < psnCompare c.qp.req.psn (c.qp.comp.psn + c.par.maxReqCompGap)
  | .depth, c => c.qp.req.rdAtomic ≤ 0
  | .fence, c => c.qp.req.wqeIndex ≠ 0

/-- The flag that says so. -/
def flag : ReqWait → Ctx → Bool
  | .psn, c => c.qp.req.waitPsn
  | .depth, c => c.qp.req.needRdAtomic
  | .fence, c => c.qp.req.waitFence

end ReqWait

/-- What the WQE at `req.wqe_index` waits for, in the order of the tests of `rxe_requester`. -/
def wqeWait (c : Ctx) (w : SendWqe) : Option ReqWait :=
  if w.ibwr.sendFlags.fence ∧ c.qp.req.wqeIndex ≠ 0 then some .fence
  else if 0 < psnCompare c.qp.req.psn (c.qp.comp.psn + c.par.maxReqCompGap) then some .psn
  else if c.par.maxSkbPerQp < c.qp.reqSkbOut then none
  else
    match nextOpcode c.qp.type c.qp.mtu c.qp.req.opcode w with
    | none => none
    | some opcode =>
      if (rxeOpcodeMask opcode).readOrAtomic ∧ w.hasRdAtomic = false ∧ c.qp.req.rdAtomic ≤ 0 then
        some .depth
      else none

/-- What a call of `rxe_requester` on an RC QP waits for when it returns, if it is the window,
a credit or a fence. -/
def reqExit (c : Ctx) : Option ReqWait :=
  if c.qp.valid = false ∨ c.qp.req.state = .error ∨ c.qp.req.state = .reset then none
  else
    let c := reqDrain (reqStart c)
    match c.next with
    | none => none
    | some w =>
      if c.qp.req.wqeIndex = c.qp.sq.live.length ∨
          (c.qp.req.state = .drain ∨ c.qp.req.state = .drained) ∧ w.state ≠ .processing then none
      else wqeWait c w

section Exit

variable {c : Ctx} {w : SendWqe} {why : ReqWait}

theorem reqNextWqe_queued (hnext : (reqDrain c).next = some w)
    (hqueued : ¬ ((reqDrain c).qp.req.wqeIndex = (reqDrain c).qp.sq.live.length ∨
      ((reqDrain c).qp.req.state = .drain ∨ (reqDrain c).qp.req.state = .drained) ∧
        w.state ≠ .processing)) :
    reqNextWqe c =
      if w.ibwr.sendFlags.fence ∧ (reqDrain c).qp.req.wqeIndex ≠ 0 then
        (none, { reqDrain c with qp.req.waitFence := true })
      else (some { w with mask := wrOpcodeMask w.ibwr.opcode (reqDrain c).qp.type },
        (reqDrain c).masked w) := by
  rw [not_or] at hqueued
  unfold reqNextWqe
  rw [if_neg hqueued.1,
    show (reqDrain c).qp.sq.get? (reqDrain c).qp.req.wqeIndex = some w from hnext]
  dsimp only
  rw [if_neg hqueued.2]
  rfl

/-- Where the requester waits, it has set the flag, and the condition holds. -/
theorem reqNext_exit (hrc : (reqDrain c).qp.type = .rc) (hnext : (reqDrain c).next = some w)
    (hqueued : ¬ ((reqDrain c).qp.req.wqeIndex = (reqDrain c).qp.sq.live.length ∨
      ((reqDrain c).qp.req.state = .drain ∨ (reqDrain c).qp.req.state = .drained) ∧
        w.state ≠ .processing))
    (hwhy : wqeWait (reqDrain c) w = some why) :
    ∃ c', reqNext c = some (false, c') ∧ why.flag c' ∧ why.blocks c' ∧
      c'.qp.valid = (reqDrain c).qp.valid ∧ c'.qp.req.state = (reqDrain c).qp.req.state := by
  unfold wqeWait at hwhy
  unfold reqNext
  split at hwhy
  · next hfence =>
    cases hwhy
    rw [reqNextWqe_queued hnext hqueued, if_pos hfence]
    exact ⟨_, rfl, rfl, hfence.2, rfl, rfl⟩
  · next hfence =>
    rw [reqNextWqe_queued hnext hqueued, if_neg hfence]
    generalize reqDrain c = c₁ at *
    dsimp only
    split at hwhy
    · next hgap =>
      cases hwhy
      rw [if_pos ⟨hrc, hgap⟩]
      exact ⟨_, rfl, rfl, hgap, rfl, rfl⟩
    · next hgap =>
      rw [if_neg (fun h => hgap h.2)]
      obtain ⟨hskb, hwhy⟩ := Option.ite_none_left_eq_some.1 hwhy
      rw [if_neg (show ¬ (c₁.masked w).par.maxSkbPerQp < (c₁.masked w).qp.reqSkbOut from hskb)]
      split at hwhy
      · cases hwhy
      · next opcode hop =>
        rw [show nextOpcode (c₁.masked w).qp.type (c₁.masked w).qp.mtu
          (c₁.masked w).qp.req.opcode
          { w with mask := wrOpcodeMask w.ibwr.opcode c₁.qp.type } = some opcode from hop]
        dsimp only
        obtain ⟨hdepth, ⟨⟩⟩ := Option.ite_none_right_eq_some.1 hwhy
        obtain ⟨hread, hno, hnone⟩ := hdepth
        -- `check_init_depth` finds no credit
        have hfail : checkDepth (c₁.masked w)
            { w with mask := wrOpcodeMask w.ibwr.opcode c₁.qp.type } opcode =
              (false, { c₁.masked w with qp.req.needRdAtomic := true }) := by
          unfold checkDepth checkInitDepth
          rw [if_pos hread, if_neg (by simp [hno]), if_neg]
          show ¬ 0 ≤ c₁.qp.req.rdAtomic - 1
          omega
        unfold reqBuild
        rw [hfail]
        exact ⟨_, rfl, rfl, hnone, rfl, rfl⟩

theorem rxeRequester_exit (hrc : c.qp.type = .rc) (hwhy : reqExit c = some why) :
    ∃ c', rxeRequester c = some (false, c') ∧ why.flag c' ∧ why.blocks c' ∧ c'.qp.valid ∧
      c'.qp.req.state ≠ .reset := by
  obtain ⟨hrun, hwhy⟩ := Option.ite_none_left_eq_some.1 hwhy
  simp only [not_or] at hrun
  obtain ⟨hvalid, herr, hreset⟩ := hrun
  rw [rxeRequester_start (by simpa using hvalid) herr hreset]
  dsimp only at hwhy
  split at hwhy
  · cases hwhy
  · next w hnext =>
    split at hwhy
    · cases hwhy
    · next hqueued =>
      have hrc' : (reqDrain (reqStart c)).qp.type = .rc :=
        (congrArg Prod.fst ((reqDrain_rel fixedRel _).trans (reqStart_rel fixedRel c))).trans hrc
      obtain ⟨c', hcall, hflag, hblocks, hvalid', hstate⟩ := reqNext_exit hrc' hnext hqueued hwhy
      have hside := reqStart_side c
      refine ⟨c', hcall, hflag, hblocks, ?_, fun hr => hreset (hside.reqReset (hstate ▸ hr))⟩
      rw [hvalid', hside.valid]
      simpa using hvalid

end Exit

/-! ### The completer wakes the requester -/

/-- Since the log had `n` entries the requester has been scheduled, or what it waits for has
not happened and the flag is set. -/
structure Woken (why : ReqWait) (n : ℕ) (c : Ctx) : Prop where
  valid : c.qp.valid
  live : c.qp.req.state ≠ .reset
  logged : n ≤ c.out.length
  wake : .runReq ∈ c.out.drop n ∨ (why.flag c ∧ why.blocks c)

/-- What `Woken` reads of a context, apart from the events. -/
def waitView (c : Ctx) : Bool × QpState × (Bool × Bool × Bool) × ℕ × ℕ × Params × ℤ × ℕ :=
  (c.qp.valid, c.qp.req.state, (c.qp.req.waitPsn, c.qp.req.needRdAtomic, c.qp.req.waitFence),
    c.qp.req.psn, c.qp.comp.psn, c.par, c.qp.req.rdAtomic, c.qp.req.wqeIndex)

namespace Woken

variable {why : ReqWait} {n : ℕ} {c c' : Ctx}

theorem mem_drop_append {es : List Event} (c : Ctx) (h : Event.runReq ∈ c.out.drop n) :
    Event.runReq ∈ (c.out ++ es).drop n := by
  rw [List.drop_append]
  exact List.mem_append_left _ h

theorem congr (h : Woken why n c) (hview : waitView c' = waitView c) {es : List Event}
    (hout : c'.out = c.out ++ es) : Woken why n c' := by
  simp only [waitView, Prod.mk.injEq] at hview
  obtain ⟨hvalid, hstate, ⟨hpsnf, hdepthf, hfencef⟩, hreq, hcomp, hpar, hrd, hindex⟩ := hview
  refine ⟨hvalid ▸ h.valid, hstate ▸ h.live, ?_, ?_⟩
  · rw [hout, List.length_append]
    exact Nat.le_add_right_of_le h.logged
  · rcases h.wake with hrun | ⟨hflag, hblocks⟩
    · rw [hout]
      exact Or.inl (mem_drop_append c hrun)
    · right
      cases why with
      | psn =>
        exact ⟨hpsnf.trans hflag, by simpa only [ReqWait.blocks, hreq, hcomp, hpar] using hblocks⟩
      | depth => exact ⟨hdepthf.trans hflag, by simpa only [ReqWait.blocks, hrd] using hblocks⟩
      | fence => exact ⟨hfencef.trans hflag, by simpa only [ReqWait.blocks, hindex] using hblocks⟩

theorem same (h : Woken why n c) (hview : waitView c' = waitView c) (hout : c'.out = c.out) :
    Woken why n c' := by
  have hnil : c'.out = c.out ++ [] := by rw [hout, List.append_nil]
  exact h.congr hview hnil

theorem emit (h : Woken why n c) (e : Event) : Woken why n (c.emit e) :=
  h.congr rfl rfl

theorem run (h : Woken why n c) (hvalid : c'.qp.valid) (hlive : c'.qp.req.state ≠ .reset)
    (hout : c'.out = c.out) : Woken why n (c'.emit .runReq) where
  valid := hvalid
  live := hlive
  logged := by
    rw [Ctx.emit, hout, List.length_append]
    exact Nat.le_add_right_of_le h.logged
  wake := by
    left
    rw [Ctx.emit, hout, List.drop_append_of_le_length h.logged]
    exact List.mem_append_right _ List.mem_cons_self

theorem scheduled (h : Woken why n c) (hflag : why.flag c = false) : .runReq ∈ c.out.drop n := by
  rcases h.wake with hrun | ⟨hset, -⟩
  · exact hrun
  · rw [hflag] at hset
    cases hset

end Woken

section Completer

variable {why : ReqWait} {n : ℕ} {c c' : Ctx}

theorem wakeWaitPsn_woken (h : Woken why n c) (psn : ℕ) :
    Woken why n (wakeWaitPsn { c with qp.comp.psn := psn }) := by
  unfold wakeWaitPsn
  split
  · exact h.run h.valid h.live rfl
  · next hflag =>
    have hflag : c.qp.req.waitPsn = false := by simpa using hflag
    refine ⟨h.valid, h.live, h.logged, ?_⟩
    cases why with
    | psn => exact Or.inl (h.scheduled hflag)
    | depth => exact h.wake
    | fence => exact h.wake

theorem advanceCompPsn_woken (h : Woken why n c) (pkt : Pkt) :
    Woken why n (wakeWaitPsn (advanceCompPsn c pkt)) := by
  unfold advanceCompPsn
  split
  · exact wakeWaitPsn_woken h _
  · exact wakeWaitPsn_woken h c.qp.comp.psn

theorem wakeWaitFence_woken (h : Woken why n c) : Woken why n (wakeWaitFence (advanceSq c)) := by
  unfold wakeWaitFence
  split
  · exact h.run h.valid h.live rfl
  · next hflag =>
    have hflag : c.qp.req.waitFence = false := by simpa [advanceSq] using hflag
    refine ⟨h.valid, h.live, h.logged, ?_⟩
    cases why with
    | psn => exact h.wake
    | depth => exact h.wake
    | fence => exact Or.inl (h.scheduled hflag)

theorem postSendCqe_woken (h : Woken why n c) (w : SendWqe) : Woken why n (postSendCqe c w) := by
  unfold postSendCqe
  split
  · unfold Ctx.cqPost
    split
    · exact h.emit _
    · exact h.congr rfl rfl
    · exact h.congr rfl rfl
  · exact h

theorem doComplete_woken (h : Woken why n c) : Woken why n (doComplete c) := by
  unfold doComplete
  split
  · exact h
  · exact wakeWaitFence_woken (postSendCqe_woken h _)

theorem releaseRdAtomic_woken (h : Woken why n c) (w : SendWqe) :
    Woken why n (releaseRdAtomic c w) := by
  unfold releaseRdAtomic
  split
  · dsimp only
    split
    · exact h.run h.valid h.live rfl
    · next hflag =>
      have hflag : c.qp.req.needRdAtomic = false := by simpa [Ctx.setWqe] using hflag
      refine ⟨h.valid, h.live, h.logged, ?_⟩
      -- nobody waits for a credit
      cases why with
      | psn => exact h.wake
      | depth => exact Or.inl (h.scheduled hflag)
      | fence => exact h.wake
  · exact h

theorem completeDrain_woken (h : Woken why n c) : Woken why n (completeDrain c) := by
  unfold completeDrain
  split
  · refine Woken.emit ?_ _
    exact ⟨h.valid, nofun, h.logged, by cases why <;> exact h.wake⟩
  · exact h

theorem completeAck_woken (h : Woken why n c) (pkt : Pkt) (w : SendWqe) :
    Woken why n (completeAck c pkt w).2 :=
  doComplete_woken (completeDrain_woken (releaseRdAtomic_woken h w))

theorem completeWqe_woken (h : Woken why n c) (pkt : Option Pkt) :
    Woken why n (completeWqe c pkt).2 := by
  have hopcode : Woken why n { c with qp.comp.opcode := none } := h.same rfl rfl
  unfold completeWqe
  split
  · exact doComplete_woken hopcode
  · next p => exact doComplete_woken (advanceCompPsn_woken hopcode p)

theorem updateComp_woken (h : Woken why n c) (pkt : Pkt) : Woken why n (updateComp c pkt) := by
  refine advanceCompPsn_woken ?_ pkt
  exact h.same rfl rfl

theorem copyResponse_woken (h : Woken why n c) (pkt : Pkt) (w : SendWqe) (data : List UInt8)
    (next : DmaInfo → CompState) : Woken why n (copyResponse c pkt w data next).2 := by
  obtain ⟨dma, dev, heq | heq⟩ := copyResponse_outcome c pkt w data next
  · rw [heq]
    exact h.same rfl rfl
  · rw [heq]
    exact h.congr rfl rfl

theorem PsnOutcome.woken {pkt : Pkt} {w : SendWqe} {r : CompState × Ctx}
    (hout : PsnOutcome c pkt w r) (h : Woken why n c) : Woken why n r.2 := by
  cases hout with
  | implied => exact h.same rfl rfl
  | lost | early | again | old | skipped | current => exact h

theorem AckOutcome.woken {pkt : Pkt} {w : SendWqe} {r : CompState × Ctx}
    (hout : AckOutcome c pkt w r) (h : Woken why n c) : Woken why n r.2 := by
  cases hout with
  | unfit | rnr | seq => exact h
  | read | atomic | ack | nak => exact h.same rfl rfl
  | seqPast => exact wakeWaitPsn_woken h pkt.psn

theorem flushSq_woken (k : ℕ) : ∀ {c : Ctx}, Woken why n c → Woken why n (flushSq k c) := by
  induction k with
  | zero => exact fun h => h
  | succ k ih => exact fun h => ih (doComplete_woken (h.same rfl rfl))

theorem rxeQpError_woken (h : Woken why n c) : Woken why n (rxeQpError c) := by
  have herr : Woken why n ((toErrorState c).emit .runResp) := by
    refine Woken.emit ?_ _
    exact ⟨h.valid, nofun, h.logged, by cases why <;> exact h.wake⟩
  refine Woken.emit ?_ _
  split
  · exact herr.emit _
  · exact flushSq_woken _ (herr.same rfl rfl)

theorem compExit_woken (h : Woken why n c) : Woken why n (compExit c) := by
  unfold compExit
  split
  · exact h.emit _
  · exact h

theorem compErrorRetry_woken (h : Woken why n c) : Woken why n (compErrorRetry c) := by
  unfold compErrorRetry
  dsimp only
  split
  · exact h.run h.valid h.live rfl
  · exact h.same rfl rfl

theorem wokenRule (why : ReqWait) (n : ℕ) :
    CompRule (fun _ _ c => Woken why n c) (fun c => Woken why n c) where
  noAck _ _ h _ := h
  takeAck _ _ _ _ h _ := h.same rfl rfl
  getWqe _ _ h := h
  checkPsn p w c _ h := (compCheckPsn_outcome c p w).woken h
  checkAck p w c _ h := (checkAck_outcome c p w).woken h
  read p w _ _ h := copyResponse_woken h p w _ _
  atomic p w c _ h := by
    exact copyResponse_woken h p w _ _
  writeSend _ _ _ _ h := h
  compAck p w _ _ h := completeAck_woken h p w
  compWqe pkt _ h := completeWqe_woken h pkt
  updateComp p _ h := updateComp_woken h p
  done _ _ h := h
  timedOut _ _ _ _ _ h := h
  exit _ _ h := compExit_woken h
  retry _ _ _ _ _ _ h := compErrorRetry_woken h
  retryExc _ _ _ _ _ _ h := h.same rfl rfl
  rnrRetry _ _ _ _ _ h := h.congr rfl rfl
  rnrExc _ _ _ _ _ h := h.same rfl rfl
  error _ _ h := rxeQpError_woken (doComplete_woken h)
  leave _ _ _ _ h := h

theorem rxeCompleter_woken {r : Bool × Ctx} (h : Woken why n c) (hcall : rxeCompleter c = some r) :
    Woken why n r.2 := by
  rcases rxeCompleter_cases hcall with ⟨hdrop, -⟩ | ⟨-, rfl⟩ | ⟨-, -, rfl⟩ | ⟨-, -, -, -, hrun⟩
  · rcases hdrop with hvalid | hreset
    · rw [h.valid] at hvalid
      cases hvalid
    · exact absurd hreset h.live
  · refine flushSq_woken _ ?_
    exact h.same rfl rfl
  · exact h.same rfl rfl
  · refine (wokenRule why n).run ?_ hrun
    exact h.same rfl rfl

end Completer

/-! ### Runs -/

/-- A step of a run; the ghost value is what the last call of the requester waits for, with
the length of the log when it returned. -/
def wakeStep (k : Ctx × Option (ReqWait × ℕ)) (a : SendAct) :
    Option (Ctx × Option (ReqWait × ℕ)) :=
  (sendAct k.1 a).map fun c =>
    (c, match a with
      | .requester => (reqExit k.1).map (·, c.out.length)
      | _ => k.2)

/-- Everything but the modify verbs. -/
def SendAct.steady : SendAct → Prop
  | .modify _ => False
  | _ => True

/-- What holds at all times. -/
structure Alert (k : Ctx × Option (ReqWait × ℕ)) : Prop where
  rc : k.1.qp.type = .rc
  woken : ∀ why n, k.2 = some (why, n) → Woken why n k.1

theorem rxePostSend_woken {why : ReqWait} {n : ℕ} {c : Ctx} (h : Woken why n c)
    (wrs : List SendWr) :
    Woken why n (rxePostSend c wrs).2 :=
  rxePostSend_inv (fun _ _ _ h => h.same rfl rfl) (fun _ h => h.emit _) h wrs

theorem Alert.step {k k' : Ctx × Option (ReqWait × ℕ)} {a : SendAct} (h : Alert k)
    (hok : a.steady) (hstep : wakeStep k a = some k') : Alert k' := by
  obtain ⟨c', hact, rfl⟩ := Option.map_eq_some_iff.1 hstep
  have hmodify : ∀ attr, a ≠ .modify attr := by
    rintro attr rfl
    exact hok
  refine ⟨(congrArg Prod.fst (sendAct_fixed hmodify hact)).trans h.rc, fun why n hk => ?_⟩
  cases a with
  | post wrs =>
    cases hact
    exact rxePostSend_woken (h.woken why n hk) wrs
  | requester =>
    -- the call starts a new wait, with the log as it left it
    obtain ⟨w, hexit, hlog⟩ := Option.map_eq_some_iff.1 hk
    cases hlog
    obtain ⟨c₁, hcall, hflag, hblocks, hvalid, hlive⟩ := rxeRequester_exit h.rc hexit
    obtain ⟨r, hr, rfl⟩ := Option.map_eq_some_iff.1 hact
    cases hcall.symm.trans hr
    exact ⟨hvalid, hlive, Nat.le_refl _, Or.inr ⟨hflag, hblocks⟩⟩
  | completer =>
    obtain ⟨r, hcall, rfl⟩ := Option.map_eq_some_iff.1 hact
    exact rxeCompleter_woken (h.woken why n hk) hcall
  | recv pkt =>
    cases hact
    exact (h.woken why n hk).congr rfl rfl
  | timer =>
    cases hact
    unfold retransmitTimer
    split
    · exact (h.woken why n hk).congr rfl rfl
    · exact h.woken why n hk
  | error =>
    cases hact
    exact rxeQpError_woken (h.woken why n hk)
  | modify attr => exact hok.elim
  | env dev skb cq =>
    cases hact
    exact (h.woken why n hk).same rfl rfl

open Trace in
/-- Where the last call of the requester returned because of the window of PSNs, the number of
reads and atomics, or a fence, and that no longer blocks it, the requester has been scheduled
since. -/
theorem requester_woken (c₀ : Ctx) (k : Ctx × Option (ReqWait × ℕ)) (why : ReqWait) (n : ℕ)
    (hrc : c₀.qp.type = .rc) (hreach : Reach wakeStep (fun _ a => a.steady) (c₀, none) k)
    (hexit : k.2 = some (why, n)) (hfree : ¬ why.blocks k.1) : .runReq ∈ k.1.out.drop n := by
  have hinit : Alert (c₀, none) := ⟨hrc, nofun⟩
  have halert : Alert k := Reach.inv hinit (fun _ _ _ h hok hstep => h.step hok hstep) hreach
  rcases (halert.woken why n hexit).wake with hrun | ⟨-, hblocks⟩
  · exact hrun
  · exact absurd hblocks hfree

/-- Two requests, the second behind a fence. -/
def fencedWrs : List SendWr :=
  [{ opcode := .send }, { opcode := .send, sendFlags := { fence := true } }]

open Trace in
/-- The second request waits for the first; the acknowledgement of the first wakes the
requester. -/
theorem requester_woken_fence :
    ∃ k n, Reach wakeStep (fun _ a => a.steady) (orderQp, none) k ∧ k.2 = some (.fence, n) ∧
      ¬ ReqWait.fence.blocks k.1 ∧ .runReq ∈ k.1.out.drop n := by
  have hreach : ∃ k n, Reach wakeStep (fun _ a => a.steady) (orderQp, none) k ∧
      k.2 = some (.fence, n) ∧ k.1.qp.req.wqeIndex = 0 :=
    ⟨_, _, .next (.next (.next (.next (.next .start (a := .post fencedWrs) trivial rfl)
      (a := .requester) trivial rfl) (a := .requester) trivial rfl)
      (a := .recv { orderAck with psn := 0 }) trivial rfl) (a := .completer) trivial rfl, rfl, rfl⟩
  obtain ⟨k, n, hreach, hk, hindex⟩ := hreach
  have hfree : ¬ ReqWait.fence.blocks k.1 := fun hblocks => hblocks hindex
  exact ⟨k, n, hreach, hk, hfree, requester_woken orderQp k .fence n rfl hreach hk hfree⟩

end Rxe
