/-
Read and atomic credits.

`check_init_depth` takes one of the `max_rd_atomic` credits for a WQE, `complete_ack` gives
it back, and `wqe->has_rd_atomic` says that the WQE has one.  WQEs also leave the queue
without `complete_ack`, slots are used again without being cleared, and a retry sends the
same WQE again.

* `Balance` — the credits that are left and the WQEs of the queue that hold one add up, and
  no slot outside the queue holds one;
* `creditRule` — the completer keeps it, or moves the QP to the error state;
* `credits_balanced` — over every run of a connected QP.
-/
import Rxe.SendShape

namespace Rxe

/-! ### The balance -/

/-- Number of WQEs of the queue that hold a credit. -/
def held (q : RingBuf SendWqe) : ℕ := (q.live.map SendWqe.hasRdAtomic).count true

/-- The queue holds the credits that are missing from `total`, of which `left` are left. -/
structure Balance (total : ℤ) (q : RingBuf SendWqe) (left : ℤ) : Prop where
  sum : left + held q = total
  nonneg : 0 ≤ left
  clear : ∀ w ∈ q.free, w.hasRdAtomic = false
  mask : ∀ w ∈ q.live, w.mask = wrOpcodeMask w.ibwr.opcode .rc
  costly : ∀ w ∈ q.live, w.hasRdAtomic → w.costly

namespace Balance

variable {total left : ℤ} {q : RingBuf SendWqe} {w : SendWqe} {i : ℕ}

theorem modify (h : Balance total q left) (i : ℕ) {f : SendWqe → SendWqe}
    (hf : ∀ w, q.get? i = some w → (f w).ibwr = w.ibwr ∧ (f w).hasRdAtomic = w.hasRdAtomic ∧
      ((f w).mask = w.mask ∨ (f w).mask = wrOpcodeMask w.ibwr.opcode .rc)) :
    Balance total (q.modify i f) left := by
  -- the number of credits held does not change
  have hheld : held (q.modify i f) = held q := by
    unfold held
    cases hget : q.get? i with
    | some w => rw [RingBuf.modify_map_live_of_get? hget (hf w hget).2.1]
    | none =>
      have hlen : ¬ i < q.live.length := fun hlt => by
        rw [RingBuf.get?_of_lt hlt, List.getElem?_eq_getElem hlt] at hget
        cases hget
      unfold RingBuf.modify
      rw [if_neg hlen]
  refine ⟨by rw [hheld]; exact h.sum, h.nonneg, fun w hw => ?_, fun w hw => ?_,
    fun w hw hcredit => ?_⟩
  · rcases RingBuf.mem_free_modify hw with hw | ⟨w', hw', hget, rfl⟩
    · exact h.clear w hw
    · exact (hf w' hget).2.1.trans (h.clear w' hw')
  · rcases RingBuf.mem_live_modify hw with hw | ⟨w', hw', hget, rfl⟩
    · exact h.mask w hw
    · obtain ⟨hibwr, -, hmask | hmask⟩ := hf w' hget
      · rw [hmask, hibwr]
        exact h.mask w' hw'
      · rw [hmask, hibwr]
  · rcases RingBuf.mem_live_modify hw with hw | ⟨w', hw', hget, rfl⟩
    · exact h.costly w hw hcredit
    · obtain ⟨hibwr, hsame, -⟩ := hf w' hget
      rw [SendWqe.costly, hibwr]
      exact h.costly w' hw' (hsame ▸ hcredit)

theorem take (h : Balance total q left) (hlt : i < q.live.length) (hw : q.get? i = some w)
    (hno : w.hasRdAtomic = false) (hcostly : w.costly) (hleft : 0 < left) :
    Balance total (q.modify i fun w => { w with hasRdAtomic := true }) (left - 1) := by
  rw [RingBuf.get?_of_lt hlt, List.getElem?_eq_getElem hlt, Option.some.injEq] at hw
  have hlive : q.live = q.live.take i ++ w :: q.live.drop (i + 1) := by
    rw [← hw, List.getElem_cons_drop, List.take_append_drop]
  -- the queue before and behind the WQE that takes the credit
  have hbefore : held q = ((q.live.take i).map SendWqe.hasRdAtomic).count true +
      ((q.live.drop (i + 1)).map SendWqe.hasRdAtomic).count true := by
    unfold held
    conv_lhs => rw [hlive]
    simp [hno]
  have hheld : held (q.modify i fun w => { w with hasRdAtomic := true }) = held q + 1 := by
    rw [hbefore]
    unfold held
    rw [RingBuf.modify_of_lt _ hlt, List.modify_eq_take_cons_drop hlt]
    simp
    omega
  refine ⟨?_, by omega, fun w' hw' => ?_, fun w' hw' => ?_, fun w' hw' hcredit => ?_⟩
  · rw [hheld]
    have := h.sum
    omega
  · rw [RingBuf.modify_of_lt _ hlt] at hw'
    exact h.clear w' hw'
  · rcases RingBuf.mem_live_modify hw' with hw' | ⟨w₀, hw₀, -, rfl⟩
    · exact h.mask w' hw'
    · exact h.mask w₀ hw₀
  · rcases RingBuf.mem_live_modify hw' with hw' | ⟨w₀, -, hget, rfl⟩
    · exact h.costly w' hw' hcredit
    · rw [RingBuf.get?_of_lt hlt, List.getElem?_eq_getElem hlt, Option.some.injEq, hw] at hget
      rw [← hget]
      exact hcostly

theorem release {rest : List SendWqe} (h : Balance total q left) (hlive : q.live = w :: rest)
    (hheld : w.hasRdAtomic) :
    Balance total (q.modify 0 fun w => { w with hasRdAtomic := false }) (left + 1) := by
  have hlt : 0 < q.live.length := by
    rw [hlive]
    exact Nat.succ_pos _
  have hcount : held q = held (q.modify 0 fun w => { w with hasRdAtomic := false }) + 1 := by
    unfold held
    rw [RingBuf.modify_of_lt _ hlt, hlive]
    simp [hheld]
  refine ⟨?_, ?_, fun w' hw' => ?_, fun w' hw' => ?_, fun w' hw' hcredit => ?_⟩
  · have := h.sum
    omega
  · have := h.nonneg
    omega
  · rw [RingBuf.modify_of_lt _ hlt] at hw'
    exact h.clear w' hw'
  · rcases RingBuf.mem_live_modify hw' with hw' | ⟨w₀, hw₀, -, rfl⟩
    · exact h.mask w' hw'
    · exact h.mask w₀ hw₀
  · rcases RingBuf.mem_live_modify hw' with hw' | ⟨w₀, -, -, rfl⟩
    · exact h.costly w' hw' hcredit
    · cases hcredit

theorem pop {rest : List SendWqe} (h : Balance total q left) (hlive : q.live = w :: rest)
    (hno : w.hasRdAtomic = false) : Balance total q.pop left := by
  have hheld : held q.pop = held q := by
    unfold held
    rw [RingBuf.pop_live hlive, hlive]
    simp [hno]
  have hrest : ∀ w' ∈ q.pop.live, w' ∈ q.live := by
    rw [RingBuf.pop_live hlive, hlive]
    exact fun w' hw' => List.mem_cons_of_mem _ hw'
  refine ⟨by rw [hheld]; exact h.sum, h.nonneg, fun w' hw' => ?_,
    fun w' hw' => h.mask w' (hrest w' hw'), fun w' hw' => h.costly w' (hrest w' hw')⟩
  rw [RingBuf.pop_live hlive] at hw'
  rcases List.mem_append.1 hw' with hw' | hw'
  · exact h.clear w' hw'
  · rw [List.mem_singleton.1 hw']
    exact hno

theorem push (h : Balance total q left) (dev : Dev) (wr : SendWr) (length ssn : ℕ)
    (hspare : q.free ≠ []) :
    Balance total (q.push (initSendWqe .rc dev wr (wrOpcodeMask wr.opcode .rc) length ssn))
      left := by
  obtain ⟨slot, cells, hfree⟩ := List.exists_cons_of_ne_nil hspare
  have hslot : slot.hasRdAtomic = false := h.clear slot (by rw [hfree]; exact List.mem_cons_self)
  rw [RingBuf.push_live _ hfree]
  refine ⟨?_, h.nonneg, fun w hw => ?_, fun w hw => ?_, fun w hw hcredit => ?_⟩
  · have := h.sum
    unfold held at this ⊢
    simpa [initSendWqe, hslot] using this
  · exact h.clear w (by rw [hfree]; exact List.mem_cons_of_mem _ hw)
  · rcases List.mem_append.1 hw with hw | hw
    · exact h.mask w hw
    · rw [List.mem_singleton.1 hw]
      rfl
  · rcases List.mem_append.1 hw with hw | hw
    · exact h.costly w hw hcredit
    · rw [List.mem_singleton.1 hw] at hcredit
      rw [show (initSendWqe .rc dev wr _ length ssn slot).hasRdAtomic = slot.hasRdAtomic from rfl,
        hslot] at hcredit
      cases hcredit

end Balance

/-! ### A retry -/

/-- What a credit depends on. -/
def SendWqe.account (w : SendWqe) : SendWr × WrMask × Bool := (w.ibwr, w.mask, w.hasRdAtomic)

theorem Balance.of_account {total left : ℤ} {q q' : RingBuf SendWqe} (h : Balance total q left)
    (hfree : q'.free = q.free) (hlive : q'.live.map SendWqe.account = q.live.map SendWqe.account) :
    Balance total q' left := by
  have hheld : held q' = held q := by
    have hmap := congrArg (List.map fun a : SendWr × WrMask × Bool => a.2.2) hlive
    rw [List.map_map, List.map_map] at hmap
    exact congrArg (List.count true) hmap
  have hmem : ∀ w ∈ q'.live, ∃ w' ∈ q.live, w'.account = w.account := by
    intro w hw
    have := List.mem_map_of_mem (f := SendWqe.account) hw
    rw [hlive] at this
    exact List.mem_map.1 this
  refine ⟨by rw [hheld]; exact h.sum, h.nonneg, by rw [hfree]; exact h.clear, fun w hw => ?_,
    fun w hw hcredit => ?_⟩
  · obtain ⟨w', hw', hacc⟩ := hmem w hw
    simp only [SendWqe.account, Prod.mk.injEq] at hacc
    rw [← hacc.2.1, ← hacc.1]
    exact h.mask w' hw'
  · obtain ⟨w', hw', hacc⟩ := hmem w hw
    simp only [SendWqe.account, Prod.mk.injEq] at hacc
    rw [SendWqe.costly, ← hacc.1]
    exact h.costly w' hw' (hacc.2.2.trans hcredit)

/-! ### The tasks -/

/-- The balance of a QP. -/
def Ctx.balanced (total : ℤ) (c : Ctx) : Prop := Balance total c.qp.sq c.qp.req.rdAtomic

/-- The oldest WQE has no credit. -/
def Ctx.headClear (c : Ctx) : Prop := ∀ w, c.sqHead = some w → w.hasRdAtomic = false

section Completer

variable {total : ℤ} {c : Ctx} {w : SendWqe} {pkt : Pkt}

theorem doComplete_balanced (h : c.balanced total) (hno : c.headClear) :
    (doComplete c).balanced total := by
  unfold doComplete
  split
  · exact h
  · next w hw =>
    obtain ⟨rest, hlive⟩ := Ctx.live_of_head hw
    have hpop : (advanceSq (postSendCqe c w)).balanced total := by
      unfold advanceSq
      rw [postSendCqe_qp]
      exact h.pop hlive (hno w hw)
    unfold wakeWaitFence
    split <;> exact hpop

theorem releaseRdAtomic_balanced (h : c.balanced total) (hw : c.sqHead = some w) :
    (releaseRdAtomic c w).balanced total ∧ (releaseRdAtomic c w).headClear := by
  obtain ⟨rest, hlive⟩ := Ctx.live_of_head hw
  unfold releaseRdAtomic
  split
  · next hheld =>
    have hrelease := h.release hlive hheld
    have hno : (c.setWqe 0 fun w => { w with hasRdAtomic := false }).headClear := by
      intro w' hw'
      rw [Ctx.sqHead_setWqe, hw] at hw'
      cases hw'
      rfl
    dsimp only
    split <;> exact ⟨hrelease, hno⟩
  · next hheld =>
    refine ⟨h, fun w' hw' => ?_⟩
    cases hw.symm.trans hw'
    simpa using hheld

theorem wakeWaitPsn_balanced (h : c.balanced total) : (wakeWaitPsn c).balanced total := by
  unfold wakeWaitPsn
  split <;> exact h

theorem advance_balanced (h : c.balanced total) (opcode : Option Opcode) (pkt : Pkt) :
    (wakeWaitPsn (advanceCompPsn { c with qp.comp.opcode := opcode } pkt)).balanced total := by
  refine wakeWaitPsn_balanced ?_
  unfold advanceCompPsn
  split <;> exact h

theorem completeAck_balanced (h : c.balanced total) (hw : c.sqHead = some w) (pkt : Pkt) :
    (completeAck c pkt w).2.balanced total := by
  obtain ⟨hrelease, hno⟩ := releaseRdAtomic_balanced h hw
  unfold completeAck
  unfold completeDrain
  split
  · exact doComplete_balanced hrelease hno
  · exact doComplete_balanced hrelease hno

theorem completeWqe_balanced (h : c.balanced total) (hno : c.headClear) (pkt : Option Pkt) :
    (completeWqe c pkt).2.balanced total := by
  unfold completeWqe
  split
  · exact doComplete_balanced h hno
  · next p =>
    refine doComplete_balanced (advance_balanced h none p) ?_
    unfold Ctx.headClear Ctx.sqHead
    rw [wakeWaitPsn_advance_sq]
    exact hno

/-- A WQE that an acknowledgement of a later one completes has no credit: it is no read and no
atomic. -/
theorem headClear_of_mask (h : c.balanced total) (hw : c.sqHead = some w)
    (hmask : w.mask.atomicOrRead = false) : c.headClear := by
  intro w' hw'
  cases hw.symm.trans hw'
  have hmem : w ∈ c.qp.sq.live := List.mem_of_head? hw
  rw [h.mask w hmem] at hmask
  by_contra hheld
  have hcostly := h.costly w hmem (by simpa using hheld)
  rw [SendWqe.costly, hmask] at hcostly
  cases hcostly

/-- What holds in a state of the completer. -/
def balanceState (total : ℤ) : CompState → Ctx → Prop
  | .error, _ => True
  | .compWqe, c => c.balanced total ∧ c.headClear
  | _, c => c.balanced total

theorem copyResponse_balance (h : c.balanced total) (pkt : Pkt) (w : SendWqe)
    (data : List UInt8) {next : DmaInfo → CompState}
    (hnext : ∀ dma, next dma = .compAck ∨ next dma = .updateComp) :
    balanceState total (copyResponse c pkt w data next).1 (copyResponse c pkt w data next).2 := by
  obtain ⟨dma, dev, heq | heq⟩ := copyResponse_outcome c pkt w data next
  · rw [heq]
    trivial
  · rw [heq]
    have hdma : Balance total (c.qp.sq.modify 0 fun w => { w with dma }) c.qp.req.rdAtomic :=
      h.modify 0 fun _ _ => ⟨rfl, rfl, Or.inl rfl⟩
    rcases hnext dma with hstate | hstate
    · rw [hstate]
      exact hdma
    · rw [hstate]
      exact hdma

/-- The credits of an RC QP. -/
structure Credits (total : ℤ) (c : Ctx) : Prop extends Shaped c where
  balance : c.balanced total

/-- The completer keeps the credits, or moves the QP to the error state. -/
theorem creditRule (total : ℤ) :
    CompRule (fun state _ c => shapeState state c ∧ balanceState total state c)
      (fun c => c.qp.req.state ≠ .error → Credits total c) where
  noAck pkt c h hq := ⟨shapeRule.noAck pkt c h.1 hq, h.2⟩
  takeAck pkt c p pkts h hq := ⟨shapeRule.takeAck pkt c p pkts h.1 hq, h.2⟩
  getWqe pkt c h := by
    refine ⟨shapeRule.getWqe pkt c h.1, ?_⟩
    have hout := getWqe_outcome c pkt
    generalize getWqe c pkt = state at hout
    cases hout with
    | idle | unasked | busy => exact h.2
    | failed => trivial
    | done hw hstate => exact absurd hstate (h.1.shape.not_done (List.mem_of_head? hw))
  checkPsn p w c hw h := by
    refine ⟨shapeRule.checkPsn p w c hw h.1, ?_⟩
    have hout := compCheckPsn_outcome c p w
    generalize compCheckPsn c p w = r at hout
    cases hout with
    | lost | early | old | skipped | again | current => exact h.2
    -- an acknowledgement of a later WQE completes no read
    | implied _ _ hmask => exact ⟨h.2, headClear_of_mask h.2 hw hmask⟩
  checkAck p w c hw h := by
    refine ⟨shapeRule.checkAck p w c hw h.1, ?_⟩
    have hout := checkAck_outcome c p w
    generalize checkAck c p w = r at hout
    cases hout with
    | unfit | nak => trivial
    | read | atomic | ack | rnr | seq => exact h.2
    | seqPast => exact wakeWaitPsn_balanced h.2
  read p w c hw h := by
    refine ⟨shapeRule.read p w c hw h.1, copyResponse_balance h.2 p w _ fun dma => ?_⟩
    split
    · exact Or.inl rfl
    · exact Or.inr rfl
  atomic p w c _ h := by
    unfold doAtomic
    generalize u64Bytes p.atmack = data
    exact ⟨copyResponse_shape h.1.1 h.1.2 p w data fun _ => Or.inl rfl,
      copyResponse_balance h.2 p w data fun _ => Or.inl rfl⟩
  writeSend p w c hw h := by
    refine ⟨shapeRule.writeSend p w c hw h.1, ?_⟩
    split <;> exact h.2
  compAck p w c hw h := by
    refine ⟨shapeRule.compAck p w c hw h.1, ?_⟩
    have hack := completeAck_balanced h.2 hw p
    rcases completeAck_state c p w with hstate | hstate
    · rw [hstate]
      exact hack
    · rw [hstate]
      exact hack
  compWqe pkt c h := ⟨shapeRule.compWqe pkt c h.1, completeWqe_balanced h.2.1 h.2.2 pkt⟩
  updateComp p c h :=
    ⟨shapeRule.updateComp p c h.1, advance_balanced h.2 _ p⟩
  done pkt c h hr := ⟨shapeRule.done pkt c h.1 hr, h.2⟩
  timedOut pkt c w hw ht h := ⟨shapeRule.timedOut pkt c w hw ht h.1, h.2⟩
  exit pkt c h hr := by
    refine ⟨shapeRule.exit pkt c h.1 hr, ?_⟩
    unfold compExit
    split <;> exact h.2
  retry pkt c w hw hp hc h hr := by
    refine ⟨shapeRule.retry pkt c w hw hp hc h.1 hr, ?_⟩
    unfold compErrorRetry
    dsimp only
    split <;> exact h.2
  retryExc _ _ _ _ _ _ _ := ⟨trivial, trivial⟩
  rnrRetry p c w hw hc h hr := ⟨shapeRule.rnrRetry p c w hw hc h.1 hr, h.2⟩
  rnrExc _ _ _ _ _ _ := ⟨trivial, trivial⟩
  error _ _ _ hstate := absurd (rxeQpError_reqState _) hstate
  leave state pkt c hne h hr := by
    refine ⟨shapeRule.leave state pkt c hne h.1 hr, ?_⟩
    cases state with
    | error => exact absurd rfl hne
    | compWqe => exact h.2.1
    | checkPsn | checkAck | read | atomic | writeSend | compAck | getAck | getWqe | updateComp
    | errorRetry | rnrRetry | exit | done => exact h.2

theorem rxeCompleter_credits {r : Bool × Ctx} (h : Credits total c) (hvalid : c.qp.valid)
    (hlive : c.qp.req.state ≠ .reset) (hcall : rxeCompleter c = some r)
    (hr : r.2.qp.req.state ≠ .error) : Credits total r.2 := by
  rcases rxeCompleter_live hvalid hlive hcall hr with heq | hrun
  · rw [heq]
    exact ⟨⟨h.rc, h.shape⟩, h.balance⟩
  · exact (creditRule total).run (s := ⟨.getAck, none, compEnter c⟩)
      ⟨⟨h.rc, h.shape⟩, h.balance⟩ hrun hr

end Completer

section Requester

variable {total : ℤ} {c c₁ : Ctx} {w : SendWqe} {opcode : Opcode}

theorem reqStart_balanced (h : c.balanced total) : (reqDrain (reqStart c)).balanced total := by
  have hstart : (reqStart c).balanced total := by
    unfold reqStart
    split
    · unfold reqRetry
      split
      · exact h
      · exact h.of_account rfl (retryLoop_map
          (retryWqe_map (fun _ _ => rfl) (fun _ _ _ => rfl) fun _ _ => rfl) _ _ _)
    · exact h
  unfold reqDrain
  split <;> exact hstart

theorem masked_balanced (h : Credits total c) (hw : c.next = some w) :
    (c.masked w).balanced total := by
  refine h.balance.modify _ fun w' hw' => ?_
  cases hw.symm.trans hw'
  exact ⟨rfl, rfl, Or.inr (by rw [h.rc])⟩

theorem Credited.balanced (hcredit : Credited (c.masked w) w opcode c₁) (h : Credits total c)
    (hw : Chosen c w) (hop : nextOpcode c.qp.type c.qp.mtu c.qp.req.opcode w = some opcode) :
    c₁.balanced total := by
  have hmasked := masked_balanced h hw.next
  cases hcredit with
  | free => exact hmasked
  | held => exact hmasked
  | taken hread hno hleft =>
    have hcostly : w.costly := by
      rw [h.rc] at hop
      rw [← nextOpcode_costly hop]
      exact hread
    have hnext : (c.masked w).qp.sq.get? c.qp.req.wqeIndex =
        some { w with mask := wrOpcodeMask w.ibwr.opcode c.qp.type } := by
      refine (Ctx.next_setWqe c _).trans ?_
      rw [hw.next]
      rfl
    have hlt : c.qp.req.wqeIndex < (c.masked w).qp.sq.live.length := by
      unfold Ctx.masked Ctx.setWqe
      rw [RingBuf.modify_live_length]
      exact hw.inside h.shape hcostly
    exact hmasked.take hlt hnext hno hcostly hleft

theorem Building.balanced (hbuild : Building c w opcode c₁) (h : Credits total c) :
    c₁.balanced total := by
  obtain ⟨c₂, skb, noack, out, hcredit, hload⟩ := hbuild.steps
  have hcredited := hcredit.balanced h hbuild.chosen hbuild.op
  cases hload with
  | none => exact hcredited
  | data => exact hcredited.modify _ fun _ _ => ⟨rfl, rfl, Or.inl rfl⟩

theorem updateWqe_account (type : QpType) (psn numPkt : ℕ) (mask : HdrMask) (w : SendWqe) :
    (updateWqe type psn numPkt mask w).account = w.account := by
  unfold updateWqe
  split <;> rfl

theorem updateState_balanced (pkt : Pkt) (payload : ℕ) (h : c.balanced total)
    (hw : c.next = some w) : (updateState c pkt payload).balanced total := by
  obtain ⟨numPkt, w', psn, hw', heq⟩ := updateState_eq pkt payload hw
  have hacc : w'.account = w.account := by
    rw [hw']
    exact updateWqe_account _ _ _ _ _
  simp only [SendWqe.account, Prod.mk.injEq] at hacc
  unfold Ctx.balanced
  rw [heq, armRetransTimer_qp]
  refine Balance.modify h _ fun w₀ hw₀ => ?_
  cases hw.symm.trans hw₀
  exact ⟨hacc.1, hacc.2.2, Or.inl hacc.2.1⟩

theorem Building.sent_held (hbuild : Building c w opcode c₁) (h : Shaped c)
    (hread : (rxeOpcodeMask opcode).readOrAtomic) (pkt : Pkt) (payload : ℕ) :
    ∃ w' ∈ (updateState c₁ pkt payload).qp.sq.live, w'.ssn = w.ssn ∧ w'.hasRdAtomic := by
  obtain ⟨w₁, hcarried⟩ := hbuild.carried
  obtain ⟨numPkt, w', psn, hw', heq⟩ := updateState_eq pkt payload hcarried.next
  have hop := hbuild.op
  rw [h.rc] at hop
  have hlt : c₁.qp.req.wqeIndex < c₁.qp.sq.live.length := by
    rw [hcarried.index, hcarried.length]
    exact hbuild.chosen.inside h.shape (by rw [← nextOpcode_costly hop]; exact hread)
  have hacc : w'.account = w₁.account := by
    rw [hw']
    exact updateWqe_account _ _ _ _ _
  have hident : w'.ident = w₁.ident := by
    rw [hw']
    exact updateWqe_ident _ _ _ _ _
  have hmem : w' ∈ (c₁.qp.sq.modify c₁.qp.req.wqeIndex fun _ => w').live := by
    refine List.mem_of_getElem? (i := c₁.qp.req.wqeIndex) ?_
    rw [RingBuf.live_getElem?_modify, if_pos rfl, List.getElem?_eq_getElem hlt]
    rfl
  refine ⟨w', ?_, ?_, ?_⟩
  · rw [heq, armRetransTimer_qp]
    exact hmem
  · exact congrArg Prod.fst (hident.trans hcarried.ident)
  · rw [show w'.hasRdAtomic = w₁.hasRdAtomic from congrArg (fun a => a.2.2) hacc]
    exact hcarried.credit hread

theorem ReqOutcome.credits {c' : Ctx} (hout : ReqOutcome c c') (h : Credits total c)
    (hvalid : c.qp.valid) (hlive : c.qp.req.state ≠ .reset) (hr : c'.qp.req.state ≠ .error) :
    Credits total c' := by
  refine ⟨hout.shaped h.toShaped hvalid hlive hr, ?_⟩
  cases hout with
  | idle | fence => exact h.balance
  | window hw => exact masked_balanced h hw.next
  | full hw => exact masked_balanced h hw.next
  | invalid hw => exact (masked_balanced h hw.next).modify _ fun _ _ => ⟨rfl, rfl, Or.inl rfl⟩
  | depth hw => exact masked_balanced h hw.next
  | noSkb c₁ skb hw hop hcredit => exact hcredit.balanced h hw hop
  | @failed w opcode c₁ _ b hbuild hcall =>
    obtain ⟨w₁, hcarried⟩ := hbuild.carried
    have hfailed : Credits total (c₁.setWqe c₁.qp.req.wqeIndex fun w =>
        { w with status := .locProtErr, state := .error }) :=
      ⟨hbuild.failed_shaped h.toShaped,
        (hbuild.balanced h).modify _ fun _ _ => ⟨rfl, rfl, Or.inl rfl⟩⟩
    refine (rxeCompleter_credits hfailed ?_ ?_ hcall hr).balance
    · exact (congrArg (fun f => f.2.1) hbuild.fixed).trans hvalid
    · exact fun hreset => hlive (hcarried.reqState.symm.trans hreset)
  | sent hbuild hpkt =>
    obtain ⟨w₁, hcarried⟩ := hbuild.carried
    exact updateState_balanced _ _ (hbuild.balanced h) hcarried.next

theorem rxeRequester_credits {r : Bool × Ctx} (h : Credits total c) (hvalid : c.qp.valid)
    (hlive : c.qp.req.state ≠ .reset) (hcall : rxeRequester c = some r)
    (hr : r.2.qp.req.state ≠ .error) : Credits total r.2 := by
  obtain ⟨b, c'⟩ := r
  rcases rxeRequester_cases h.rc hcall with ⟨-, rfl⟩ | ⟨hreset, -⟩ | ⟨-, -, -, hout⟩
  · exact h
  · exact absurd hreset hlive
  · have hside := reqStart_side c
    exact hout.credits ⟨reqStart_shaped h.toShaped, reqStart_balanced h.balance⟩
      (hside.valid.trans hvalid) (fun hreset => hlive (hside.reqReset hreset)) hr

end Requester

/-! ### Runs -/

section Post

variable {total : ℤ} {c : Ctx}

theorem rxePostSend_credits (h : Credits total c) (wrs : List SendWr) :
    Credits total (rxePostSend c wrs).2 := by
  refine rxePostSend_inv (fun c wr hfull h => ?_) (fun _ h => ⟨⟨h.rc, h.shape⟩, h.balance⟩)
    h wrs
  rw [h.rc]
  exact ⟨⟨h.rc, h.shape.push hfull fun _ => rfl⟩, h.balance.push _ _ _ _ h.shape.spare⟩

end Post

/-- Everything but a reset and another change of `max_rd_atomic`. -/
def SendAct.keepsDepth : SendAct → Prop
  | .modify a => a.maxRdAtomic = none ∧ a.qpState ≠ some .reset
  | _ => True

/-- The QP has not entered the error state. -/
def CreditOk (c : Ctx) (a : SendAct) : Prop := c.qp.req.state ≠ .error ∧ a.keepsDepth

/-- What holds up to the error state. -/
structure Solvent (total : ℤ) (c : Ctx) : Prop where
  valid : c.qp.valid
  live : c.qp.req.state ≠ .reset
  credits : c.qp.req.state ≠ .error → Credits total c

theorem Solvent.step {total : ℤ} {c c' : Ctx} {a : SendAct} (h : Solvent total c)
    (hok : CreditOk c a) (hact : sendAct c a = some c') : Solvent total c' := by
  have hcredits := h.credits hok.1
  have hreset : ∀ attr, a = .modify attr → attr.qpState ≠ some .reset := by
    rintro attr rfl
    exact hok.2.2
  obtain ⟨hvalid, hlive⟩ := sendAct_live h.valid h.live hreset hact
  refine ⟨hvalid, hlive, fun hr => ?_⟩
  cases a with
  | post wrs =>
    cases hact
    exact rxePostSend_credits hcredits wrs
  | env dev skb cq =>
    cases hact
    exact ⟨⟨hcredits.rc, hcredits.shape⟩, hcredits.balance⟩
  | requester =>
    obtain ⟨r, hcall, rfl⟩ := Option.map_eq_some_iff.1 hact
    exact rxeRequester_credits hcredits h.valid h.live hcall hr
  | completer =>
    obtain ⟨r, hcall, rfl⟩ := Option.map_eq_some_iff.1 hact
    exact rxeCompleter_credits hcredits h.valid h.live hcall hr
  | recv pkt =>
    cases hact
    exact ⟨⟨hcredits.rc, hcredits.shape⟩, hcredits.balance⟩
  | timer =>
    cases hact
    unfold retransmitTimer
    split
    · exact ⟨⟨hcredits.rc, hcredits.shape⟩, hcredits.balance⟩
    · exact hcredits
  | error =>
    cases hact
    exact absurd (rxeQpError_reqState c) hr
  | modify a =>
    obtain ⟨r, hcall, rfl⟩ := Option.map_eq_some_iff.1 hact
    unfold rxeQpFromAttr at hcall
    rw [hok.2.1] at hcall
    obtain ⟨c₁, hset, rfl⟩ := Option.map_eq_some_iff.1 hcall
    -- the attributes do not touch the send queue
    obtain ⟨hsq, hindex, hleft, -⟩ :=
      setQpState_sq (c := { c with qp := setAttrs c.par c.qp a }) hcredits.rc hok.2.2 hset hr
    refine ⟨⟨sendAct_rc hcredits.rc hact, ?_⟩, ?_⟩
    · rw [hsq, hindex]
      exact hcredits.shape
    · unfold Ctx.balanced
      rw [hsq, hleft]
      exact hcredits.balance

theorem Solvent.sends {total : ℤ} {c c' : Ctx} {a : SendAct} (h : Solvent total c)
    (hok : CreditOk c a) (hact : sendAct c a = some c') :
    ∀ p ∈ (sends c'.out).drop (Rxe.sends c.out).length, (rxeOpcodeMask p.1.opcode).readOrAtomic →
      ∃ w ∈ c'.qp.sq.live, w.ssn = p.2 ∧ w.hasRdAtomic := by
  have hcredits := h.credits hok.1
  intro p hp hread
  by_cases hreq : a = .requester
  · subst hreq
    obtain ⟨⟨b, c''⟩, hcall, rfl⟩ := Option.map_eq_some_iff.1 hact
    rcases rxeRequester_cases hcredits.rc hcall with ⟨-, rfl⟩ | ⟨hreset, -⟩ | ⟨-, -, -, hout⟩
    · rw [List.drop_length] at hp
      cases hp
    · exact absurd hreset h.live
    · have hstart := reqStart_shaped hcredits.toShaped
      rcases hout.sends_cases with hsame | ⟨w, opcode, c₁, pkt, hbuild, hpkt, hc', hsends⟩
      · rw [hsame, reqStart_sends, List.drop_length] at hp
        cases hp
      · rw [hsends, reqStart_sends, List.drop_left, List.mem_singleton] at hp
        subst hp
        obtain ⟨w', hmem, hssn, hheld⟩ := hbuild.sent_held hstart (hpkt ▸ hread) pkt
          (reqPayload (reqDrain (reqStart c)) w opcode).toNat
        exact ⟨w', by rw [hc']; exact hmem, hssn, hheld⟩
  · rw [sendAct_sends hcredits.rc hreq hact, List.drop_length] at hp
    cases hp

/-- A QP from which nothing has been sent. -/
structure FreshQueue (c : Ctx) : Prop where
  rc : c.qp.type = .rc
  valid : c.qp.valid
  empty : c.qp.sq.live = []
  index : c.qp.req.wqeIndex = 0
  spare : c.qp.sq.free ≠ []
  clear : ∀ w ∈ c.qp.sq.free, w.hasRdAtomic = false

theorem roundupPowOfTwo_pow (e : ℕ) : roundupPowOfTwo (2 ^ e) = 2 ^ e := by
  unfold roundupPowOfTwo
  cases e with
  | zero => rfl
  | succ e =>
    have hpos : 0 < 2 ^ e := Nat.two_pow_pos e
    have hlog : Nat.log2 (2 ^ (e + 1) - 1) = e := by
      rw [Nat.log2_eq_iff (by omega)]
      omega
    rw [if_neg (by omega), hlog]

theorem FreshQueue.solvent {c c' : Ctx} {a : ModifyAttr} {e : ℕ} (h : FreshQueue c)
    (hmax : a.maxRdAtomic = some (2 ^ e)) (hrts : a.qpState = some .rts)
    (hconnect : rxeQpFromAttr c a = some (true, c')) : Solvent (2 ^ e : ℕ) c' := by
  unfold rxeQpFromAttr setMaxRdAtomic at hconnect
  rw [hmax, hrts] at hconnect
  obtain ⟨skb, hskb⟩ := takeSkb_eq c
  generalize c.takeSkb = r at hskb hconnect
  obtain ⟨ok, c₁⟩ := r
  obtain rfl : c₁ = { c with skb } := hskb
  cases ok with
  | false => cases hconnect
  | true =>
    cases hconnect
    refine ⟨h.valid, nofun, fun _ => ⟨⟨h.rc, ?_⟩, ?_⟩⟩
    · show Shape c.qp.sq c.qp.req.wqeIndex
      rw [h.index]
      refine Shape.of_posted h.spare fun w hw => ?_
      rw [h.empty] at hw
      cases hw
    · show Balance _ c.qp.sq (roundupPowOfTwo (2 ^ e) : ℕ)
      have hnone : ∀ w, w ∉ c.qp.sq.live := by
        rw [h.empty]
        exact fun w => List.not_mem_nil
      refine ⟨?_, Int.natCast_nonneg _, h.clear, fun w hw => absurd hw (hnone w),
        fun w hw => absurd hw (hnone w)⟩
      rw [held, h.empty, roundupPowOfTwo_pow]
      exact Int.add_zero _

open Trace in
/-- A QP connected with `max_rd_atomic = 2 ^ e`, up to the error state: the credits that are
left and the queued WQEs that hold one add up to `2 ^ e`, none is overdrawn, no slot outside
the queue holds one, so at most `2 ^ e` WQEs hold one; and every read or atomic that is sent
comes from a queued WQE that does. -/
theorem credits_balanced (c₀ c₁ c : Ctx) (a : ModifyAttr) (e : ℕ) (hfresh : FreshQueue c₀)
    (hmax : a.maxRdAtomic = some (2 ^ e)) (hrts : a.qpState = some .rts)
    (hconnect : rxeQpFromAttr c₀ a = some (true, c₁)) (hreach : Reach sendAct CreditOk c₁ c)
    (hready : c.qp.req.state ≠ .error) :
    c.qp.req.rdAtomic + held c.qp.sq = (2 ^ e : ℕ) ∧ 0 ≤ c.qp.req.rdAtomic ∧
      held c.qp.sq ≤ 2 ^ e ∧ (∀ w ∈ c.qp.sq.free, w.hasRdAtomic = false) ∧
      ∀ act c', CreditOk c act → sendAct c act = some c' →
        ∀ p ∈ (sends c'.out).drop (sends c.out).length, (rxeOpcodeMask p.1.opcode).readOrAtomic →
          ∃ w ∈ c'.qp.sq.live, w.ssn = p.2 ∧ w.hasRdAtomic := by
  have hsolvent : Solvent (2 ^ e : ℕ) c :=
    Reach.inv (hfresh.solvent hmax hrts hconnect) (fun _ _ _ h hok hact => h.step hok hact) hreach
  have hbalance := (hsolvent.credits hready).balance
  have hsum := hbalance.sum
  have hnonneg := hbalance.nonneg
  exact ⟨hsum, hnonneg, by omega, hbalance.clear, fun act c' hok hact => hsolvent.sends hok hact⟩

/-- A QP with an empty send queue, before it is connected. -/
def freshQp : Ctx :=
  { qp := { type := .rc, sq := ⟨[], List.replicate 4 { ibwr := { opcode := .send } }⟩,
            rq := ⟨[], [{}]⟩, sqMaxSge := 1 } }

/-- The QP is connected with a single credit. -/
def connectAttr : ModifyAttr := { qpState := some .rts, maxRdAtomic := some 1 }

open Trace in
/-- A read takes the only credit. -/
theorem credits_balanced_read :
    ∃ c₁ c, rxeQpFromAttr freshQp connectAttr = some (true, c₁) ∧ Reach sendAct CreditOk c₁ c ∧
      held c.qp.sq = 1 ∧ c.qp.req.rdAtomic = 0 := by
  have hrun : ∃ c₁ c, rxeQpFromAttr freshQp connectAttr = some (true, c₁) ∧
      Reach sendAct CreditOk c₁ c ∧ c.qp.req.state ≠ .error ∧ c.qp.req.rdAtomic = 0 :=
    ⟨_, _, rfl, .next (.next .start (a := .post [{ opcode := .rdmaRead }]) ⟨nofun, trivial⟩ rfl)
      (a := .requester) ⟨nofun, trivial⟩ rfl, nofun, rfl⟩
  obtain ⟨c₁, c, hconnect, hreach, hready, hleft⟩ := hrun
  have hfresh : FreshQueue freshQp := ⟨rfl, rfl, rfl, rfl, nofun, by decide⟩
  have hbalance := credits_balanced freshQp c₁ c connectAttr 0 hfresh rfl rfl hconnect hreach hready
  refine ⟨c₁, c, hconnect, hreach, ?_, hleft⟩
  have hsum := hbalance.1
  omega

end Rxe
