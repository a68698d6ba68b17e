/-
The end of a drain.

A modify to SQD puts the requester into the state DRAIN: it finishes the message it is
sending and starts no other.  Two places decide that the queue is drained and deliver
`IB_EVENT_SQ_DRAINED`: `req_next_wqe`, when the oldest WQE is where the requester stands and
is posted, and `complete_ack`, when `comp.psn` has caught up with `req.psn`.

* `Numbered` — the WQEs of the queue are numbered in order, and the requester never sends
  from another WQE with the number of a queued one;
* `Ctx.honest` — while the QP drains, a posted WQE has not been transmitted;
* `drainRule` — a call of the completer delivers the event at most once, when it ends the
  drain;
* `sq_drained_truthful` — the event is delivered when the drain ends and at no other time,
  and then no transmitted WQE is left in the queue;
* `sq_drained_early` — a retry in the state DRAIN.
-/
import Rxe.SendShape

namespace Rxe

variable {c c' : Ctx} {f : SendWqe → SendWqe} {w : SendWqe} {r : Bool × Ctx}

/-! ### Numbers -/

/-- The numbers of the queued WQEs. -/
def numbers (q : RingBuf SendWqe) : List ℕ := q.live.map SendWqe.ssn

/-- The queue is numbered in order, up to `ssn`, and a retired WQE the requester is still at
has a smaller number. -/
structure Numbered (q : RingBuf SendWqe) (i ssn : ℕ) : Prop where
  incr : (numbers q).Pairwise (· < ·)
  top : ∀ n ∈ numbers q, n ≤ ssn
  retired : q.live.length < i → ∀ w, q.get? i = some w → w.ssn ≤ ssn ∧ ∀ n ∈ numbers q, w.ssn < n

namespace Numbered

variable {q q' : RingBuf SendWqe} {i ssn : ℕ} {w : SendWqe}

theorem of_le (h : Numbered q i ssn) {j : ℕ} (hnum : numbers q' = numbers q)
    (hj : j ≤ q'.live.length) : Numbered q' j ssn :=
  ⟨hnum ▸ h.incr, hnum ▸ h.top, fun hlt => absurd hj (Nat.not_le.2 hlt)⟩

theorem modify (h : Numbered q i ssn) (j : ℕ)
    (hf : ∀ w, q.get? j = some w → (f w).ssn = w.ssn) : Numbered (q.modify j f) i ssn := by
  have hnum : numbers (q.modify j f) = numbers q := by
    cases hget : q.get? j with
    | some w => exact RingBuf.modify_map_live_of_get? hget (hf w hget)
    | none =>
      -- a retired WQE is not among those that are numbered
      have hlen : ¬ j < q.live.length := fun hlt => by
        rw [RingBuf.get?_of_lt hlt, List.getElem?_eq_getElem hlt] at hget
        cases hget
      unfold numbers RingBuf.modify
      rw [if_neg hlen]
  refine ⟨hnum ▸ h.incr, hnum ▸ h.top, fun hlt w hw => ?_⟩
  rw [RingBuf.modify_live_length] at hlt
  rw [RingBuf.get?_modify] at hw
  rw [hnum]
  split at hw
  · next hij =>
    obtain ⟨w', hw', rfl⟩ := Option.map_eq_some_iff.1 hw
    rw [hf w' (by rw [hij]; exact hw')]
    exact h.retired hlt w' hw'
  · exact h.retired hlt w hw

theorem pop {rest : List SendWqe} (h : Numbered q i ssn) (hlive : q.live = w :: rest)
    (hle : i ≤ q.live.length) : Numbered q.pop (q.rebase i) ssn := by
  have hpop := RingBuf.pop_live hlive
  have hcons : numbers q = w.ssn :: rest.map SendWqe.ssn := by
    rw [numbers, hlive]
    rfl
  have hincr := h.incr
  rw [hcons] at hincr
  obtain ⟨hhead, hrest⟩ := List.pairwise_cons.1 hincr
  have hslots : q.live.length ≤ q.slots := Nat.le_add_right _ _
  rw [hpop]
  refine ⟨hrest, fun n hn => h.top n (by rw [hcons]; exact List.mem_cons_of_mem _ hn),
    fun hlt w' hw' => ?_⟩
  cases i with
  | zero =>
    -- the requester stays on the retired WQE
    have hlen : 0 < q.live.length := by
      rw [hlive]
      exact Nat.succ_pos _
    rw [RingBuf.rebase_zero (by omega)] at hw'
    have hlast : (RingBuf.mk rest (q.free ++ [w])).get? (q.slots - 1) = some w := by
      have hlen' : q.slots - 1 = rest.length + q.free.length := by
        rw [RingBuf.slots, hlive, List.length_cons]
        omega
      unfold RingBuf.get?
      rw [← List.append_assoc, List.getElem?_append_right (by simp [hlen'])]
      simp [hlen']
    cases hlast.symm.trans hw'
    exact ⟨h.top _ (by rw [hcons]; exact List.mem_cons_self), hhead⟩
  | succ i =>
    rw [RingBuf.rebase_succ (by omega)] at hlt
    rw [hlive, List.length_cons] at hle
    exact absurd hlt (by dsimp only; omega)

theorem push (h : Numbered q i ssn) (hspare : q.free ≠ [])
    (hf : ∀ w, (f w).ssn = ssn + 1) : Numbered (q.push f) i (ssn + 1) := by
  obtain ⟨slot, cells, hfree⟩ := List.exists_cons_of_ne_nil hspare
  have hnum : (q.live ++ [f slot]).map SendWqe.ssn = numbers q ++ [ssn + 1] := by
    rw [List.map_append, numbers]
    simp [hf]
  have hmem : ∀ {n}, n ∈ (q.live ++ [f slot]).map SendWqe.ssn → n ∈ numbers q ++ [ssn + 1] :=
    fun hn => hnum ▸ hn
  rw [RingBuf.push_live f hfree]
  refine ⟨?_, ?_, fun hlt w hw => ?_⟩
  · show ((q.live ++ [f slot]).map SendWqe.ssn).Pairwise (· < ·)
    rw [hnum, List.pairwise_append]
    refine ⟨h.incr, List.pairwise_singleton _ _, fun n hn m hm => ?_⟩
    rw [List.mem_singleton.1 hm]
    exact Nat.lt_succ_of_le (h.top n hn)
  · intro n hn
    rcases List.mem_append.1 (hmem hn) with hn | hn
    · exact Nat.le_succ_of_le (h.top n hn)
    · exact Nat.le_of_eq (List.mem_singleton.1 hn)
  -- the cell taken is the first free one, so the retired WQE is another
  · have hlt' : q.live.length + 1 < i := by simpa using hlt
    have hget : q.get? i = some w := (RingBuf.get?_push_of_gt hfree (by omega)).symm.trans hw
    obtain ⟨htop, hless⟩ := h.retired (by omega) w hget
    refine ⟨Nat.le_succ_of_le htop, fun n hn => ?_⟩
    rcases List.mem_append.1 (hmem hn) with hn | hn
    · exact hless n hn
    · rw [List.mem_singleton.1 hn]
      exact Nat.lt_succ_of_le htop

end Numbered

/-! ### The log -/

/-- A packet of the WQE with this number has been transmitted. -/
def Ctx.transmitted (c : Ctx) (ssn : ℕ) : Prop := ∃ p ∈ sends c.out, p.2 = ssn

theorem Ctx.transmitted_congr (h : sends c'.out = sends c.out) (ssn : ℕ) :
    c'.transmitted ssn ↔ c.transmitted ssn := by
  unfold Ctx.transmitted
  rw [h]

/-- `IB_EVENT_SQ_DRAINED` -/
def Event.drained? : Event → Option Unit
  | .sqDrained => some ()
  | _ => none

theorem drained_coarse : Coarse Event.drained? :=
  ⟨fun _ _ => rfl, rfl, fun _ _ => rfl, rfl, rfl, rfl, rfl⟩

/-- How often `IB_EVENT_SQ_DRAINED` has been delivered. -/
def Ctx.drains (c : Ctx) : ℕ := (seen Event.drained? c).length

theorem Ctx.drains_of_seen (h : seen Event.drained? c' = seen Event.drained? c) :
    c'.drains = c.drains :=
  congrArg List.length h

theorem Ctx.drains_emit (c : Ctx) {e : Event} (he : e.drained? = none) :
    (c.emit e).drains = c.drains :=
  Ctx.drains_of_seen (seen_emit c he)

theorem Ctx.drains_sqDrained (c : Ctx) : (c.emit .sqDrained).drains = c.drains + 1 := by
  unfold Ctx.drains seen Ctx.emit
  rw [List.filterMap_append, List.length_append]
  rfl

/-! ### The condition on responses -/

/-- What a drain looks at in a WQE. -/
structure WqeTag where
  ssn : ℕ
  lastPsn : ℕ
  wr : SendWr

def SendWqe.tag (w : SendWqe) : WqeTag := ⟨w.ssn, w.lastPsn, w.ibwr⟩

/-- The queue with the states of its WQEs. -/
def Ctx.tags (c : Ctx) : List (WqeTag × WqeState) := c.qp.sq.live.map fun w => (w.tag, w.state)

/-- No transmitted WQE is queued behind one that ends with this PSN. -/
def Ctx.clearBehind (c : Ctx) (psn : ℕ) : Prop :=
  ∀ pre t rest, c.qp.sq.live.map SendWqe.tag = pre ++ t :: rest → t.lastPsn = psn →
    ∀ t' ∈ rest, ¬ c.transmitted t'.ssn

/-- Where everything sent has been acknowledged, or is by the next response, no transmitted WQE
is behind the one that response is for, and a read or an atomic is not answered under a PSN
that has not been used. -/
def Ctx.answersLast (c : Ctx) : Prop :=
  ∀ pkt, c.qp.respPkts.head? = some pkt →
    (c.qp.comp.psn = c.qp.req.psn → ∀ w, c.sqHead = some w → w.costly →
      psnCompare pkt.psn c.qp.comp.psn < 0) ∧
    (c.qp.comp.psn = c.qp.req.psn ∨ psnMask (pkt.psn + 1) = c.qp.req.psn → c.clearBehind pkt.psn)

/-! ### A call of the completer -/

/-- The state, the next PSN and the events. -/
def Ctx.drainView (c : Ctx) : QpState × ℕ × ℕ := (c.qp.req.state, c.qp.req.psn, c.drains)

theorem wakeWaitPsn_drainView (c : Ctx) : (wakeWaitPsn c).drainView = c.drainView := by
  have hdrains := Ctx.drains_of_seen (wakeWaitPsn_rel (seenRel drained_coarse).toCalmRel c)
  unfold Ctx.drainView
  rw [hdrains]
  unfold wakeWaitPsn
  split <;> rfl

theorem advanceCompPsn_drainView (c : Ctx) (pkt : Pkt) :
    (advanceCompPsn c pkt).drainView = c.drainView := by
  unfold advanceCompPsn
  split <;> rfl

theorem releaseRdAtomic_drainView (c : Ctx) (w : SendWqe) :
    (releaseRdAtomic c w).drainView = c.drainView := by
  have hdrains := Ctx.drains_of_seen (releaseRdAtomic_rel (seenRel drained_coarse).toCalmRel c w)
  unfold Ctx.drainView
  rw [hdrains]
  unfold releaseRdAtomic
  split
  · dsimp only
    split <;> rfl
  · rfl

theorem doComplete_drainView (c : Ctx) : (doComplete c).drainView = c.drainView := by
  have hdrains := Ctx.drains_of_seen (doComplete_rel (seenRel drained_coarse).toCalmRel c)
  have hpsn : (doComplete c).qp.req.psn = c.qp.req.psn := by
    unfold doComplete
    split
    · rfl
    · next w _ =>
      have hpop : (advanceSq (postSendCqe c w)).qp.req.psn = c.qp.req.psn := by
        unfold advanceSq
        rw [postSendCqe_qp]
      unfold wakeWaitFence
      split <;> exact hpop
  unfold Ctx.drainView
  rw [hdrains, hpsn, doComplete_reqState]

theorem copyResponse_drainView (c : Ctx) (pkt : Pkt) (w : SendWqe) (data : List UInt8)
    (next : DmaInfo → CompState) : (copyResponse c pkt w data next).2.drainView = c.drainView := by
  have hdrains := Ctx.drains_of_seen
    (copyResponse_rel (seenRel drained_coarse).toCalmRel c pkt w data next)
  unfold Ctx.drainView
  rw [hdrains]
  obtain ⟨dma, dev, h | h⟩ := copyResponse_outcome c pkt w data next <;> rw [h] <;> rfl

theorem Ctx.tags_setWqe (c : Ctx) (i : ℕ)
    (hf : ∀ w, (f w).tag = w.tag ∧ (f w).state = w.state) : (c.setWqe i f).tags = c.tags :=
  RingBuf.modify_map_live _ _ fun w => by rw [(hf w).1, (hf w).2]

theorem Ctx.tags_cons (hw : c.sqHead = some w) :
    c.tags = (w.tag, w.state) :: c.tags.tail := by
  obtain ⟨rest, hlive⟩ := Ctx.live_of_head hw
  unfold Ctx.tags
  rw [hlive]
  rfl

theorem Ctx.sqHead_of_tags {c₀ : Ctx} (htags : c.tags = c₀.tags)
    (hw : c.sqHead = some w) : ∃ w₀, c₀.sqHead = some w₀ ∧ w₀.tag = w.tag := by
  have hcons := Ctx.tags_cons hw
  rw [htags] at hcons
  unfold Ctx.tags at hcons
  unfold Ctx.sqHead
  cases hlive : c₀.qp.sq.live with
  | nil =>
    rw [hlive] at hcons
    cases hcons
  | cons w₀ rest =>
    rw [hlive, List.map_cons, List.cons.injEq] at hcons
    exact ⟨w₀, rfl, congrArg Prod.fst hcons.1⟩

/-- What is left of the queue a call of the completer began with. -/
structure Trail (c₀ c : Ctx) : Prop where
  tags : c.tags <:+ c₀.tags
  num : Numbered c.qp.sq c.qp.req.wqeIndex c₀.qp.ssn

/-- The QP is as it was but for the queue. -/
structure Steady (c₀ c : Ctx) : Prop extends Trail c₀ c where
  view : c.drainView = c₀.drainView

/-- The drain has ended. -/
structure Ended (c₀ c : Ctx) : Prop extends Trail c₀ c where
  drain : c₀.qp.req.state = .drain
  drained : c.qp.req.state = .drained
  once : c.drains = c₀.drains + 1
  clear : c₀.answersLast → ∀ w ∈ c.qp.sq.live, ¬ c₀.transmitted w.ssn

/-- No WQE has been retired. -/
structure Unretired (c₀ c : Ctx) : Prop where
  tags : c.tags = c₀.tags
  psn : c.qp.comp.psn = c₀.qp.comp.psn

/-- WQEs have been retired, if at all, for the packet, which `comp.psn` is past then. -/
structure Walked (c₀ : Ctx) (pkt : Option Pkt) (c : Ctx) : Prop where
  head : ∀ p ∈ pkt, c₀.qp.respPkts.head? = some p
  walk : Unretired c₀ c ∨ ∃ p ∈ pkt, psnCompare p.psn c.qp.comp.psn < 0 ∧
    (c.qp.comp.psn = c₀.qp.comp.psn ∨ c.qp.comp.psn = psnMask (p.psn + 1))

/-- The packet is the next one the completer waits for, or a later one. -/
structure Arrived (c₀ : Ctx) (pkt : Option Pkt) (c : Ctx) : Prop extends Unretired c₀ c where
  head : ∀ p ∈ pkt, c₀.qp.respPkts.head? = some p
  next : ∀ p ∈ pkt, ¬ psnCompare p.psn c.qp.comp.psn < 0

/-- What holds in a state of the completer. -/
def drainState (c₀ : Ctx) : CompState → Option Pkt → Ctx → Prop
  | .error, _, c => c.drains = c₀.drains ∧ c₀.tags ≠ []
  | .getAck, pkt, c =>
    Steady c₀ c ∧ Unretired c₀ c ∧ pkt = none ∧ c.qp.respPkts = c₀.qp.respPkts
  | .getWqe, pkt, c | .checkPsn, pkt, c => Steady c₀ c ∧ Walked c₀ pkt c
  | .compWqe, pkt, c => Steady c₀ c ∧ Walked c₀ pkt c ∧ pkt.isSome ∧ c.sqHead.isSome
  | .checkAck, pkt, c | .writeSend, pkt, c => Steady c₀ c ∧ Arrived c₀ pkt c
  | .read, pkt, c | .atomic, pkt, c =>
    Steady c₀ c ∧ Arrived c₀ pkt c ∧ ∀ w, c.sqHead = some w → w.costly
  | .compAck, _, c => Steady c₀ c ∧ (c₀.answersLast → c.qp.comp.psn = c.qp.req.psn →
      ∀ t ∈ c.tags.tail, ¬ c₀.transmitted t.1.ssn)
  | .updateComp, _, c | .done, _, c => Steady c₀ c ∨ Ended c₀ c
  | .exit, _, c | .errorRetry, _, c | .rnrRetry, _, c => Steady c₀ c

section Rule

variable {c₀ c c' : Ctx} {w : SendWqe} {p : Pkt}

theorem Steady.drains (h : Steady c₀ c) : c.drains = c₀.drains :=
  congrArg (fun v => v.2.2) h.view

theorem Trail.ne_nil (h : Trail c₀ c) (hw : c.sqHead = some w) : c₀.tags ≠ [] := by
  intro hnil
  have hsuffix := h.tags
  rw [hnil, Ctx.tags_cons hw] at hsuffix
  exact absurd (List.suffix_nil.1 hsuffix) (List.cons_ne_nil _ _)

theorem Trail.of_sq (h : Trail c₀ c) (hsq : c'.qp.sq = c.qp.sq)
    (hindex : c'.qp.req.wqeIndex = c.qp.req.wqeIndex) : Trail c₀ c' := by
  refine ⟨?_, ?_⟩
  · unfold Ctx.tags
    rw [hsq]
    exact h.tags
  · rw [hsq, hindex]
    exact h.num

theorem Trail.setWqe (h : Trail c₀ c) (i : ℕ)
    (hf : ∀ w, (f w).tag = w.tag ∧ (f w).state = w.state) : Trail c₀ (c.setWqe i f) :=
  ⟨by rw [Ctx.tags_setWqe c i hf]; exact h.tags,
    h.num.modify i fun w _ => congrArg WqeTag.ssn (hf w).1⟩

theorem Trail.retire (h : Trail c₀ c) (hshaped : Shaped c) (hbusy : c.busy)
    (hw : c.sqHead = some w) : Trail c₀ (doComplete c) ∧ (doComplete c).tags = c.tags.tail := by
  obtain ⟨rest, hlive⟩ := Ctx.live_of_head hw
  obtain ⟨hsq, hindex, -⟩ := doComplete_pop hw
  have htail : (doComplete c).tags = c.tags.tail := by
    unfold Ctx.tags
    rw [hsq, RingBuf.pop_live hlive, hlive]
    rfl
  refine ⟨⟨?_, ?_⟩, htail⟩
  · rw [htail]
    exact (List.tail_suffix _).trans h.tags
  · rw [hsq, hindex]
    exact h.num.pop hlive (hshaped.shape.inside_of_busy (List.mem_of_head? hw) (hbusy w hw)).le

theorem Ctx.clearBehind.tail (h : c₀.clearBehind p.psn) (htags : c.tags <:+ c₀.tags)
    (hw : c.sqHead = some w) (hlast : w.lastPsn = p.psn) :
    ∀ t ∈ c.tags.tail, ¬ c₀.transmitted t.1.ssn := by
  obtain ⟨pre, hpre⟩ := htags
  rw [Ctx.tags_cons hw] at hpre
  have hmap : c₀.qp.sq.live.map SendWqe.tag =
      pre.map Prod.fst ++ w.tag :: c.tags.tail.map Prod.fst := by
    have htag : c₀.tags.map Prod.fst = c₀.qp.sq.live.map SendWqe.tag := List.map_map
    rw [← htag, ← hpre, List.map_append, List.map_cons]
  exact fun t ht => h _ _ _ hmap hlast t.1 (List.mem_map_of_mem ht)

theorem Walked.clear (h : Walked c₀ (some p) c) (hsteady : Steady c₀ c) (hw : c.sqHead = some w)
    (hlast : w.lastPsn = p.psn) (hfine : c₀.answersLast) (hpsn : c.qp.comp.psn = c.qp.req.psn) :
    ∀ t ∈ c.tags.tail, ¬ c₀.transmitted t.1.ssn := by
  have hreq : c.qp.req.psn = c₀.qp.req.psn := congrArg (fun v => v.2.1) hsteady.view
  refine ((hfine p (h.head p rfl)).2 ?_).tail hsteady.tags hw hlast
  -- either nothing was acknowledged before this response, or it acknowledges everything
  rcases h.walk with hsame | ⟨p', hp', -, hcomp⟩
  · exact Or.inl (by rw [← hsame.psn, hpsn, hreq])
  · cases hp'
    rcases hcomp with hcomp | hcomp
    · exact Or.inl (by rw [← hcomp, hpsn, hreq])
    · exact Or.inr (by rw [← hcomp, hpsn, hreq])

theorem Arrived.not_all (h : Arrived c₀ (some p) c) (hsteady : Steady c₀ c)
    (hw : c.sqHead = some w) (hcostly : w.costly) (hfine : c₀.answersLast) :
    c.qp.comp.psn ≠ c.qp.req.psn := by
  intro hpsn
  have hreq : c.qp.req.psn = c₀.qp.req.psn := congrArg (fun v => v.2.1) hsteady.view
  obtain ⟨w₀, hw₀, htag⟩ := Ctx.sqHead_of_tags h.tags hw
  have hcostly₀ : w₀.costly := by
    have hwr : w₀.ibwr = w.ibwr := congrArg WqeTag.wr htag
    unfold SendWqe.costly at hcostly ⊢
    rw [hwr]
    exact hcostly
  -- a read or an atomic is answered before everything has been acknowledged
  have hbefore := (hfine p (h.head p rfl)).1 (by rw [← h.psn, hpsn, hreq]) w₀ hw₀ hcostly₀
  rw [← h.psn] at hbefore
  exact h.next p rfl hbefore

theorem Arrived.copied {pkt : Option Pkt} (h : Arrived c₀ pkt c) (htags : c'.tags = c.tags)
    (hpsn : c'.qp.comp.psn = c.qp.comp.psn) : Arrived c₀ pkt c' :=
  ⟨⟨htags.trans h.tags, hpsn.trans h.psn⟩, h.head, hpsn ▸ h.next⟩

theorem copyResponse_drain (h : Steady c₀ c) (harrived : Arrived c₀ (some p) c)
    (hw : c.sqHead = some w) (hcostly : w.costly) (data : List UInt8)
    {next : DmaInfo → CompState} (hnext : ∀ dma, next dma = .compAck ∨ next dma = .updateComp) :
    drainState c₀ (copyResponse c p w data next).1 (some p) (copyResponse c p w data next).2 := by
  have hview := copyResponse_drainView c p w data next
  obtain ⟨dma, dev, heq | heq⟩ := copyResponse_outcome c p w data next
  · rw [heq] at hview ⊢
    exact ⟨(congrArg (fun v => v.2.2) hview).trans h.drains, h.toTrail.ne_nil hw⟩
  · rw [heq] at hview ⊢
    have hdev : Trail c₀ { c with dev } := ⟨h.tags, h.num⟩
    have hdma := hdev.setWqe 0 (f := fun w => { w with dma }) fun _ => ⟨rfl, rfl⟩
    have hsteady : Steady c₀ (({ c with dev }.setWqe 0 fun w => { w with dma }).emit
        (.copied p w.ssn)) := ⟨⟨hdma.tags, hdma.num⟩, hview.trans h.view⟩
    rcases hnext dma with hstate | hstate
    · rw [hstate]
      -- an answer that completes the read has used a PSN the requester has sent
      refine ⟨hsteady, fun hfine hpsn => ?_⟩
      exact absurd hpsn (harrived.not_all h hw hcostly hfine)
    · rw [hstate]
      exact Or.inl hsteady

theorem completeAck_drain (h : Steady c₀ c) (hshaped : Shaped c) (hbusy : c.busy)
    (hw : c.sqHead = some w)
    (hclear : c₀.answersLast → c.qp.comp.psn = c.qp.req.psn →
      ∀ t ∈ c.tags.tail, ¬ c₀.transmitted t.1.ssn) :
    Steady c₀ (completeAck c p w).2 ∨ Ended c₀ (completeAck c p w).2 := by
  have hview := releaseRdAtomic_drainView c w
  have hshaped₁ := releaseRdAtomic_shaped hshaped w
  have hbusy₁ := releaseRdAtomic_busy hbusy w
  have hsame : Trail c₀ (releaseRdAtomic c w) ∧ (releaseRdAtomic c w).tags = c.tags ∧
      (releaseRdAtomic c w).qp.comp.psn = c.qp.comp.psn := by
    unfold releaseRdAtomic
    split
    · have hset := h.toTrail.setWqe 0 (f := fun w => { w with hasRdAtomic := false })
        fun _ => ⟨rfl, rfl⟩
      have htags := Ctx.tags_setWqe c 0 (f := fun w => { w with hasRdAtomic := false })
        fun _ => ⟨rfl, rfl⟩
      dsimp only
      split <;> exact ⟨⟨hset.tags, hset.num⟩, htags, rfl⟩
    · exact ⟨h.toTrail, rfl, rfl⟩
  show Steady c₀ (doComplete (completeDrain (releaseRdAtomic c w))) ∨
    Ended c₀ (doComplete (completeDrain (releaseRdAtomic c w)))
  generalize releaseRdAtomic c w = c₁ at hview hshaped₁ hbusy₁ hsame
  obtain ⟨htrail, htags, hcomp⟩ := hsame
  obtain ⟨w₁, hw₁, -⟩ := Ctx.sqHead_of_tags htags.symm hw
  have hview₀ : c₁.drainView = c₀.drainView := hview.trans h.view
  unfold completeDrain
  split
  -- the test reads `comp.psn` before the WQE leaves the queue
  · next hdrain =>
    right
    have htrail' : Trail c₀ ({ c₁ with qp.req.state := .drained }.emit .sqDrained) :=
      ⟨htrail.tags, htrail.num⟩
    obtain ⟨hretired, htail⟩ := htrail'.retire ⟨hshaped₁.rc, hshaped₁.shape⟩ hbusy₁ hw₁
    have hdone := doComplete_drainView ({ c₁ with qp.req.state := .drained }.emit .sqDrained)
    refine ⟨hretired, ?_, congrArg Prod.fst hdone, ?_, fun hfine w' hw' => ?_⟩
    · exact (congrArg Prod.fst hview₀).symm.trans hdrain.1
    · refine (congrArg (fun v => v.2.2) hdone).trans ((Ctx.drains_sqDrained _).trans ?_)
      exact congrArg (fun v : QpState × ℕ × ℕ => v.2.2 + 1) hview₀
    · have hreq : c₁.qp.req.psn = c.qp.req.psn := congrArg (fun v => v.2.1) hview
      have hmem : (w'.tag, w'.state) ∈ c.tags.tail := by
        rw [← htags]
        exact htail ▸ List.mem_map_of_mem hw'
      exact hclear hfine (by rw [← hcomp, hdrain.2, hreq]) _ hmem
  · left
    obtain ⟨hretired, -⟩ := htrail.retire hshaped₁ hbusy₁ hw₁
    exact ⟨hretired, (doComplete_drainView c₁).trans hview₀⟩

theorem wakeWaitPsn_advance_index (c : Ctx) (p : Pkt) :
    (wakeWaitPsn (advanceCompPsn c p)).qp.req.wqeIndex = c.qp.req.wqeIndex := by
  unfold wakeWaitPsn advanceCompPsn
  split <;> split <;> rfl

theorem wakeWaitPsn_advance_view (c : Ctx) (p : Pkt) :
    (wakeWaitPsn (advanceCompPsn c p)).drainView = c.drainView :=
  (wakeWaitPsn_drainView _).trans (advanceCompPsn_drainView c p)

theorem wakeWaitPsn_advance_psn (c : Ctx) (p : Pkt) :
    (wakeWaitPsn (advanceCompPsn c p)).qp.comp.psn = (advanceCompPsn c p).qp.comp.psn := by
  unfold wakeWaitPsn
  split <;> rfl

theorem completeWqe_drain (h : Steady c₀ c) (hwalked : Walked c₀ (some p) c) (hshaped : Shaped c)
    (hbusy : c.busy) (hw : c.sqHead = some w) :
    Steady c₀ (completeWqe c (some p)).2 ∧ Walked c₀ (some p) (completeWqe c (some p)).2 := by
  show Steady c₀ (doComplete (wakeWaitPsn (advanceCompPsn { c with qp.comp.opcode := none } p))) ∧
    Walked c₀ (some p)
      (doComplete (wakeWaitPsn (advanceCompPsn { c with qp.comp.opcode := none } p)))
  have hsq := wakeWaitPsn_advance_sq { c with qp.comp.opcode := none } p
  have hindex := wakeWaitPsn_advance_index { c with qp.comp.opcode := none } p
  have hview := wakeWaitPsn_advance_view { c with qp.comp.opcode := none } p
  have hshaped₁ : Shaped (wakeWaitPsn (advanceCompPsn { c with qp.comp.opcode := none } p)) :=
    (Shaped.advanceCompPsn (c := { c with qp.comp.opcode := none })
      ⟨hshaped.rc, hshaped.shape⟩ p).wakeWaitPsn
  -- `comp.psn` moves to the packet, or was past it before
  have hcomp : psnCompare p.psn
        (wakeWaitPsn (advanceCompPsn { c with qp.comp.opcode := none } p)).qp.comp.psn < 0 ∧
      ((wakeWaitPsn (advanceCompPsn { c with qp.comp.opcode := none } p)).qp.comp.psn =
          c₀.qp.comp.psn ∨
        (wakeWaitPsn (advanceCompPsn { c with qp.comp.opcode := none } p)).qp.comp.psn =
          psnMask (p.psn + 1)) := by
    rw [wakeWaitPsn_advance_psn]
    unfold advanceCompPsn
    split
    · exact ⟨psnCompare_succ p.psn, Or.inr rfl⟩
    · next hpast =>
      refine ⟨Int.not_le.1 hpast, ?_⟩
      rcases hwalked.walk with hsame | ⟨p', hp', -, hcomp⟩
      · exact Or.inl hsame.psn
      · cases hp'
        exact hcomp
  generalize wakeWaitPsn (advanceCompPsn { c with qp.comp.opcode := none } p) = c₁
    at hsq hindex hview hshaped₁ hcomp
  have hhead : c₁.sqHead = c.sqHead := by
    unfold Ctx.sqHead
    rw [hsq]
  have hbusy₁ : c₁.busy := by
    unfold Ctx.busy
    rw [hhead]
    exact hbusy
  obtain ⟨-, -, hpop⟩ := doComplete_pop (hhead.trans hw)
  refine ⟨⟨((h.toTrail.of_sq hsq hindex).retire hshaped₁ hbusy₁ (hhead.trans hw)).1, ?_⟩,
    hwalked.head, Or.inr ⟨p, rfl, ?_⟩⟩
  · exact (doComplete_drainView c₁).trans (hview.trans h.view)
  · rw [hpop]
    exact hcomp

end Rule

/-- What a call of the completer can do to a drain. -/
def DrainCall (c₀ c : Ctx) : Prop :=
  c.qp.req.state = .error ∧ c.drains = c₀.drains ∧ c₀.tags ≠ [] ∨ Steady c₀ c ∨ Ended c₀ c

/-- A call of the completer ends the drain at most once. -/
theorem drainRule (c₀ : Ctx) :
    CompRule (fun state pkt c => shapeState state c ∧ drainState c₀ state pkt c)
      (DrainCall c₀) where
  noAck pkt c h hempty := by
    refine ⟨shapeRule.noAck pkt c h.1 hempty, h.2.1, ?_, Or.inl h.2.2.1⟩
    rw [h.2.2.2.1]
    nofun
  takeAck pkt c p pkts h hpkts := by
    obtain ⟨hsteady, hsame, -, hresp⟩ := h.2
    refine ⟨shapeRule.takeAck pkt c p pkts h.1 hpkts,
      ⟨⟨hsteady.tags, hsteady.num⟩, hsteady.view⟩, ?_, Or.inl ⟨hsame.tags, hsame.psn⟩⟩
    rintro _ ⟨⟩
    rw [← hresp, hpkts]
    rfl
  getWqe pkt c h := by
    refine ⟨shapeRule.getWqe pkt c h.1, ?_⟩
    have hout := getWqe_outcome c pkt
    generalize getWqe c pkt = state at hout
    cases hout with
    | idle => exact h.2.1
    | unasked => exact Or.inl h.2.1
    | failed hw => exact ⟨h.2.1.drains, h.2.1.toTrail.ne_nil hw⟩
    | done hw hstate => exact absurd hstate (h.1.shape.not_done (List.mem_of_head? hw))
    | busy => exact h.2
  checkPsn p w c hw h := by
    refine ⟨shapeRule.checkPsn p w c hw h.1, ?_⟩
    obtain ⟨hsteady, hwalked⟩ := h.2
    have hout := compCheckPsn_outcome c p w
    generalize compCheckPsn c p w = r at hout
    cases hout with
    | lost | skipped => exact hsteady
    | early | old => exact Or.inl hsteady
    | implied =>
      refine ⟨⟨⟨hsteady.tags, hsteady.num⟩, hsteady.view⟩, ⟨hwalked.head, ?_⟩, rfl,
        Option.isSome_iff_exists.2 ⟨w, hw⟩⟩
      exact hwalked.walk.imp (fun h => ⟨h.tags, h.psn⟩) id
    | again _ _ hlast => exact ⟨hsteady, hwalked.clear hsteady hw hlast.symm⟩
    | current _ hpsn =>
      -- a packet `comp.psn` has passed would have been found old
      have hsame : Unretired c₀ c := by
        rcases hwalked.walk with hsame | ⟨p', hp', hbefore, -⟩
        · exact hsame
        · cases hp'
          exact absurd hbefore hpsn
      refine ⟨hsteady, hsame, hwalked.head, ?_⟩
      rintro _ ⟨⟩
      exact hpsn
  checkAck p w c hw h := by
    refine ⟨shapeRule.checkAck p w c hw h.1, ?_⟩
    obtain ⟨hsteady, harrived⟩ := h.2
    have hcounted : Steady c₀ (resetRetryCounters c) := ⟨⟨hsteady.tags, hsteady.num⟩, hsteady.view⟩
    have harrived' : Arrived c₀ (some p) (resetRetryCounters c) := harrived.copied rfl rfl
    have hhead : ∀ {P : SendWqe → Prop}, P w → ∀ w', c.sqHead = some w' → P w' := by
      intro P hP w' hw'
      cases hw.symm.trans hw'
      exact hP
    have hout := checkAck_outcome c p w
    generalize checkAck c p w = r at hout
    cases hout with
    | unfit => exact ⟨hsteady.drains, hsteady.toTrail.ne_nil hw⟩
    | read hop | atomic hop =>
      refine ⟨hcounted, harrived', hhead ?_⟩
      rcases hop with hop | hop
      · rw [SendWqe.costly, hop]
        rfl
      · rw [SendWqe.costly, hop]
        rfl
    | ack => exact ⟨hcounted, harrived'⟩
    | rnr | seq => exact hsteady
    | seqPast =>
      refine ⟨Trail.of_sq (c := c) hsteady.toTrail ?_ ?_,
        (wakeWaitPsn_drainView _).trans hsteady.view⟩
      · unfold wakeWaitPsn
        split <;> rfl
      · unfold wakeWaitPsn
        split <;> rfl
    | nak => exact ⟨hsteady.drains, hsteady.toTrail.ne_nil hw⟩
  read p w c hw h := by
    refine ⟨shapeRule.read p w c hw h.1, copyResponse_drain h.2.1 h.2.2.1 hw (h.2.2.2 w hw) _ ?_⟩
    intro dma
    split
    · exact Or.inl rfl
    · exact Or.inr rfl
  atomic p w c hw h := by
    unfold doAtomic
    generalize u64Bytes p.atmack = data
    exact ⟨copyResponse_shape h.1.1 h.1.2 p w data fun _ => Or.inl rfl,
      copyResponse_drain h.2.1 h.2.2.1 hw (h.2.2.2 w hw) data fun _ => Or.inl rfl⟩
  writeSend p w c hw h := by
    refine ⟨shapeRule.writeSend p w c hw h.1, ?_⟩
    split
    · next hlast =>
      exact ⟨h.2.1, Walked.clear ⟨h.2.2.head, Or.inl h.2.2.toUnretired⟩ h.2.1 hw hlast.2⟩
    · exact Or.inl h.2.1
  compAck p w c hw h := by
    refine ⟨shapeRule.compAck p w c hw h.1, ?_⟩
    have hack := completeAck_drain (p := p) h.2.1 h.1.1 h.1.2 hw h.2.2
    rcases completeAck_state c p w with hstate | hstate
    · rw [hstate]
      exact hack
    · rw [hstate]
      exact hack
  compWqe pkt c h := by
    refine ⟨shapeRule.compWqe pkt c h.1, ?_⟩
    obtain ⟨hsteady, hwalked, hpkt, hhead⟩ := h.2
    obtain ⟨p, rfl⟩ := Option.isSome_iff_exists.1 hpkt
    obtain ⟨w, hw⟩ := Option.isSome_iff_exists.1 hhead
    exact completeWqe_drain hsteady hwalked h.1.1 h.1.2 hw
  updateComp p c h := by
    refine ⟨shapeRule.updateComp p c h.1, ?_⟩
    have hsq := wakeWaitPsn_advance_sq
      { c with qp.comp.opcode := if p.mask.end_ then none else some p.opcode } p
    have hindex := wakeWaitPsn_advance_index
      { c with qp.comp.opcode := if p.mask.end_ then none else some p.opcode } p
    have hview := wakeWaitPsn_advance_view
      { c with qp.comp.opcode := if p.mask.end_ then none else some p.opcode } p
    show Steady c₀ (wakeWaitPsn (advanceCompPsn _ p)) ∨ Ended c₀ (wakeWaitPsn (advanceCompPsn _ p))
    generalize wakeWaitPsn (advanceCompPsn _ p) = c₁ at hsq hindex hview ⊢
    rcases h.2 with hsteady | hended
    · exact Or.inl ⟨hsteady.toTrail.of_sq hsq hindex, hview.trans hsteady.view⟩
    · refine Or.inr ⟨hended.toTrail.of_sq hsq hindex, hended.drain, ?_, ?_, ?_⟩
      · exact (congrArg Prod.fst hview).trans hended.drained
      · exact (congrArg (fun v => v.2.2) hview).trans hended.once
      · rw [hsq]
        exact hended.clear
  done _ _ h := Or.inr h.2
  timedOut pkt c w hw htimeout h := ⟨shapeRule.timedOut pkt c w hw htimeout h.1, h.2⟩
  exit _ c h := by
    refine Or.inr (Or.inl ?_)
    have hview : (compExit c).drainView = c.drainView := by
      unfold compExit
      split
      · unfold Ctx.drainView
        rw [Ctx.drains_emit c rfl]
        rfl
      · rfl
    refine ⟨h.2.toTrail.of_sq ?_ ?_, hview.trans h.2.view⟩
    · unfold compExit
      split <;> rfl
    · unfold compExit
      split <;> rfl
  retry _ c _ _ _ _ h := by
    refine Or.inr (Or.inl ?_)
    have hview : (compErrorRetry c).drainView = c.drainView := by
      unfold compErrorRetry
      dsimp only
      split
      · unfold Ctx.drainView
        rw [Ctx.drains_emit _ rfl]
        rfl
      · rfl
    refine ⟨h.2.toTrail.of_sq ?_ ?_, hview.trans h.2.view⟩
    · unfold compErrorRetry
      dsimp only
      split <;> rfl
    · unfold compErrorRetry
      dsimp only
      split <;> rfl
  retryExc _ _ _ hw _ _ h := ⟨trivial, h.2.drains, h.2.toTrail.ne_nil hw⟩
  rnrRetry p c _ _ _ h := by
    refine Or.inr (Or.inl ⟨⟨h.2.tags, h.2.num⟩, ?_⟩)
    have hview : (compRnrRetry c p).drainView = c.drainView := by
      unfold Ctx.drainView compRnrRetry
      rw [Ctx.drains_emit _ rfl]
      rfl
    exact hview.trans h.2.view
  rnrExc _ _ _ hw _ h := ⟨trivial, h.2.drains, h.2.toTrail.ne_nil hw⟩
  error _ c h := by
    refine Or.inl ⟨rxeQpError_reqState _, ?_, h.2.2⟩
    rw [Ctx.drains_of_seen (rxeQpError_rel (seenRel drained_coarse) _),
      Ctx.drains_of_seen (doComplete_rel (seenRel drained_coarse).toCalmRel c)]
    exact h.2.1
  leave state _ c hne h := by
    cases state with
    | error => exact absurd rfl hne
    | updateComp | done => exact Or.inr h.2
    | exit | errorRetry | rnrRetry => exact Or.inr (Or.inl h.2)
    | getAck | getWqe | checkPsn | compWqe | checkAck | writeSend | read | atomic | compAck =>
      exact Or.inr (Or.inl h.2.1)

/-! ### The requester -/

/-- The send queue, its numbers, and what has been sent. -/
structure Tracked (c : Ctx) : Prop extends Shaped c where
  num : Numbered c.qp.sq c.qp.req.wqeIndex c.qp.ssn
  log : ∀ p ∈ sends c.out, p.2 ≤ c.qp.ssn

/-- While the QP drains, a posted WQE has not been transmitted. -/
def Ctx.honest (c : Ctx) : Prop :=
  c.qp.req.state = .drain → ∀ w ∈ c.qp.sq.live, w.state = .posted → ¬ c.transmitted w.ssn

section Requester

variable {c c₁ c' : Ctx} {w : SendWqe} {opcode : Opcode}

theorem Ctx.honest_of_tags (h : c.honest) (hstate : c'.qp.req.state = c.qp.req.state)
    (htags : ∀ w ∈ c'.qp.sq.live, w.state = .posted → (w.tag, w.state) ∈ c.tags)
    (hsends : sends c'.out = sends c.out) : c'.honest := by
  intro hdrain w hw hposted hsent
  obtain ⟨w', hw', heq⟩ := List.mem_map.1 (htags w hw hposted)
  obtain ⟨htag, hsame⟩ := Prod.mk.inj heq
  have hssn : w'.ssn = w.ssn := congrArg WqeTag.ssn htag
  refine h (hstate ▸ hdrain) w' hw' (hsame.trans hposted) ?_
  rw [hssn]
  exact (Ctx.transmitted_congr hsends w.ssn).1 hsent

theorem Ctx.mem_tags (hw : w ∈ c.qp.sq.live) : (w.tag, w.state) ∈ c.tags :=
  List.mem_map_of_mem hw

theorem Ctx.answersLast.congr (h : c.answersLast)
    (htags : c'.qp.sq.live.map SendWqe.tag = c.qp.sq.live.map SendWqe.tag)
    (hcomp : c'.qp.comp.psn = c.qp.comp.psn) (hreq : c'.qp.req.psn = c.qp.req.psn)
    (hresp : c'.qp.respPkts = c.qp.respPkts) (hsends : sends c'.out = sends c.out) :
    c'.answersLast := by
  intro pkt hpkt
  rw [hresp] at hpkt
  obtain ⟨hbefore, hclear⟩ := h pkt hpkt
  rw [hcomp, hreq]
  refine ⟨fun hpsn w hw hcostly => ?_, fun hlast pre t rest heq hpsn t' ht' => ?_⟩
  · obtain ⟨ws, hlive⟩ := Ctx.live_of_head hw
    rw [hlive] at htags
    -- a head with the same tag asks for the same operation
    obtain ⟨w₀, ws₀, hlive₀, htag, -⟩ := List.map_eq_cons_iff.1 htags.symm
    have hwr : w₀.ibwr = w.ibwr := congrArg WqeTag.wr htag
    refine hbefore hpsn w₀ ?_ ?_
    · unfold Ctx.sqHead
      rw [hlive₀]
      rfl
    · unfold SendWqe.costly at hcostly ⊢
      rw [hwr]
      exact hcostly
  · rw [Ctx.transmitted_congr hsends]
    exact hclear hlast pre t rest (htags ▸ heq) hpsn t' ht'

theorem Tracked.emit (h : Tracked c) {e : Event} (he : e.request? = none) : Tracked (c.emit e) := by
  refine ⟨⟨h.rc, h.shape⟩, h.num, ?_⟩
  rw [sends_emit _ he]
  exact h.log

theorem reqStart_tracked (h : Tracked c) : Tracked (reqStart c) := by
  unfold reqStart
  split
  · unfold reqRetry
    split
    · exact ⟨⟨h.rc, h.shape⟩, h.num, h.log⟩
    · next w hw =>
      -- a retry rewinds the WQEs and numbers none of them anew
      have hjob := retryLoop_job c.qp.type c.qp.mtu (psnSub c.qp.comp.psn w.firstPsn) c.qp.sq.live
        true none
      have hshape := h.shape.reqRetry
      unfold reqRetry at hshape
      rw [hw] at hshape
      refine ⟨⟨h.rc, hshape⟩, h.num.of_le ?_ (Nat.zero_le _), h.log⟩
      have hssn := congrArg (List.map SendWqe.ssn) hjob
      rw [List.map_map, List.map_map] at hssn
      exact hssn
  · exact h

theorem reqStart_drain (hcalm : c.qp.req.needRetry = false ∨ c.qp.sq.live = []) :
    reqStart c = { c with qp.req.needRetry := false } := by
  unfold reqStart
  split
  · next hretry =>
    rcases hcalm with hno | hempty
    · rw [hretry] at hno
      cases hno
    · unfold reqRetry Ctx.sqHead
      rw [hempty]
      rfl
  · next hretry =>
    have hno : c.qp.req.needRetry = false := by simpa using hretry
    rw [← hno]

/-- `req_next_wqe` ends the drain: nothing is queued, or nothing the requester has sent from. -/
theorem reqDrain_cases (h : Tracked c) :
    reqDrain c = c ∨
      c.qp.req.state = .drain ∧ reqDrain c = { c with qp.req.state := .drained }.emit .sqDrained ∧
        (∀ w ∈ c.qp.sq.live, w.state = .posted) ∧
        (c.qp.sq.live = [] ∨ c.qp.req.wqeIndex = 0) := by
  unfold reqDrain
  split
  · next hend =>
    refine Or.inr ⟨hend.1, rfl, ?_⟩
    cases hlive : c.qp.sq.live with
    | nil => exact ⟨fun w hw => absurd hw List.not_mem_nil, Or.inl rfl⟩
    | cons w rest =>
      -- `req_next_wqe` looks at the head only; what is behind a posted WQE is posted
      have hhead : c.qp.req.wqeIndex = 0 ∧ w.state = .posted := by
        have hnot := hend.2
        unfold Ctx.sqHead at hnot
        rw [hlive] at hnot
        by_contra hne
        rw [not_and_or] at hne
        exact hnot ⟨w, rfl, hne⟩
      have hpair := h.shape.pairwise
      rw [hlive, List.pairwise_cons] at hpair
      refine ⟨fun w' hw' => ?_, Or.inr hhead.1⟩
      rcases List.mem_cons.1 hw' with rfl | hw'
      · exact hhead.2
      · exact hpair.1 w' hw' hhead.2
  · exact Or.inl rfl

theorem Tracked.chosen (h : Tracked c) (hw : Chosen c w) :
    w.ssn ≤ c.qp.ssn ∧
      ∀ j w', c.qp.sq.live[j]? = some w' → w'.ssn = w.ssn → j = c.qp.req.wqeIndex := by
  have hnext : c.qp.sq.get? c.qp.req.wqeIndex = some w := hw.next
  by_cases hlt : c.qp.req.wqeIndex < c.qp.sq.live.length
  · rw [RingBuf.get?_of_lt hlt] at hnext
    have hmem : w.ssn ∈ numbers c.qp.sq := List.mem_map_of_mem (List.mem_of_getElem? hnext)
    refine ⟨h.num.top _ hmem, fun j w' hj hssn => ?_⟩
    have hincr := h.num.incr
    unfold numbers at hincr
    rw [List.pairwise_map, List.pairwise_iff_getElem] at hincr
    obtain ⟨hjlt, hjw⟩ := List.getElem?_eq_some_iff.1 hj
    obtain ⟨_, hiw⟩ := List.getElem?_eq_some_iff.1 hnext
    -- numbers increase along the queue, so the position is determined
    rcases Nat.lt_trichotomy j c.qp.req.wqeIndex with hji | hji | hji
    · have := hincr j _ hjlt hlt hji
      rw [hjw, hiw] at this
      omega
    · exact hji
    · have := hincr _ j hlt hjlt hji
      rw [hjw, hiw] at this
      omega
  -- the WQE sent from has been retired, and its number is below all that are queued
  · have hgt : c.qp.sq.live.length < c.qp.req.wqeIndex :=
      Nat.lt_of_le_of_ne (Nat.le_of_not_lt hlt) (Ne.symm hw.queued)
    obtain ⟨htop, hless⟩ := h.num.retired hgt w hnext
    refine ⟨htop, fun j w' hj hssn => ?_⟩
    have hmem : w'.ssn ∈ numbers c.qp.sq := List.mem_map_of_mem (List.mem_of_getElem? hj)
    have := hless _ hmem
    omega

/-- What building a packet leaves of the queue. -/
structure Kept (c c₁ : Ctx) : Prop where
  tags : c₁.tags = c.tags
  cell : ∀ w₁, c₁.qp.sq.get? c.qp.req.wqeIndex = some w₁ →
    ∃ w, c.qp.sq.get? c.qp.req.wqeIndex = some w ∧ w₁.ssn = w.ssn
  index : c₁.qp.req.wqeIndex = c.qp.req.wqeIndex
  comp : c₁.qp.comp.psn = c.qp.comp.psn
  resp : c₁.qp.respPkts = c.qp.respPkts
  ssn : c₁.qp.ssn = c.qp.ssn
  view : c₁.drainView = c.drainView
  out : c₁.out = c.out

theorem Kept.refl (c : Ctx) : Kept c c :=
  ⟨rfl, fun w hw => ⟨w, hw, rfl⟩, rfl, rfl, rfl, rfl, rfl, rfl⟩

theorem Kept.trans {c₂ : Ctx} (h : Kept c c₁) (h' : Kept c₁ c₂) : Kept c c₂ := by
  refine ⟨h'.tags.trans h.tags, fun w₂ hw₂ => ?_, h'.index.trans h.index, h'.comp.trans h.comp,
    h'.resp.trans h.resp, h'.ssn.trans h.ssn, h'.view.trans h.view, h'.out.trans h.out⟩
  rw [← h.index] at hw₂
  obtain ⟨w₁, hw₁, hssn₁⟩ := h'.cell w₂ hw₂
  rw [h.index] at hw₁
  obtain ⟨w, hw, hssn⟩ := h.cell w₁ hw₁
  exact ⟨w, hw, hssn₁.trans hssn⟩

theorem Kept.setWqe (c : Ctx)
    (hf : ∀ w, (f w).tag = w.tag ∧ (f w).state = w.state) :
    Kept c (c.setWqe c.qp.req.wqeIndex f) := by
  refine ⟨Ctx.tags_setWqe c _ hf, fun w₁ hw₁ => ?_, rfl, rfl, rfl, rfl, rfl, rfl⟩
  have hget := RingBuf.get?_modify c.qp.sq c.qp.req.wqeIndex c.qp.req.wqeIndex f
  rw [if_pos rfl] at hget
  obtain ⟨w, hw, rfl⟩ := Option.map_eq_some_iff.1 (hget.symm.trans hw₁)
  exact ⟨w, hw, congrArg WqeTag.ssn (hf w).1⟩

theorem Credited.kept (h : Credited (c.masked w) w opcode c₁) : Kept c c₁ := by
  have hmasked : Kept c (c.masked w) := Kept.setWqe c fun _ => ⟨rfl, rfl⟩
  cases h with
  | free | held => exact hmasked
  | taken =>
    have htaken := hmasked.trans (Kept.setWqe (c.masked w)
      (f := fun w => { w with hasRdAtomic := true }) fun _ => ⟨rfl, rfl⟩)
    exact ⟨htaken.tags, htaken.cell, htaken.index, htaken.comp, htaken.resp, htaken.ssn,
      htaken.view, htaken.out⟩

theorem Building.kept (h : Building c w opcode c₁) : Kept c c₁ := by
  obtain ⟨c₂, skb, noack, out, hcredit, hload⟩ := h.steps
  have hkept := hcredit.kept
  have hkept' : Kept c { c₂ with skb, qp.req.noackPkts := noack, qp.reqSkbOut := out } :=
    ⟨hkept.tags, hkept.cell, hkept.index, hkept.comp, hkept.resp, hkept.ssn, hkept.view, hkept.out⟩
  cases hload with
  | none => exact hkept'
  | data _ dma => exact hkept'.trans (Kept.setWqe _ fun _ => ⟨rfl, rfl⟩)

theorem Ctx.numbers_tags (c : Ctx) : numbers c.qp.sq = c.tags.map fun t => t.1.ssn := by
  unfold numbers Ctx.tags
  rw [List.map_map]
  rfl

theorem Ctx.length_tags (c : Ctx) : c.tags.length = c.qp.sq.live.length := List.length_map _

theorem Kept.tracked (h : Kept c c₁) (hc : Tracked c) (hshaped : Shaped c₁) : Tracked c₁ := by
  have hnum : numbers c₁.qp.sq = numbers c.qp.sq := by
    rw [Ctx.numbers_tags, Ctx.numbers_tags, h.tags]
  refine ⟨hshaped, ⟨?_, ?_, fun hlt w₁ hw₁ => ?_⟩, ?_⟩
  · rw [hnum]
    exact hc.num.incr
  · rw [hnum, h.ssn]
    exact hc.num.top
  · rw [h.index, ← Ctx.length_tags, h.tags, Ctx.length_tags] at hlt
    rw [h.index] at hw₁
    obtain ⟨w, hw, hssn⟩ := h.cell w₁ hw₁
    rw [hssn, h.ssn, hnum]
    exact hc.num.retired hlt w hw
  · rw [h.out, h.ssn]
    exact hc.log

theorem Kept.honest (h : Kept c c₁) (hc : c.honest) : c₁.honest := by
  refine Ctx.honest_of_tags hc (congrArg Prod.fst h.view) (fun w hw _ => ?_) (congrArg sends h.out)
  rw [← h.tags]
  exact Ctx.mem_tags hw

/-- The WQE whose data cannot be read. -/
def Ctx.failWqe (c : Ctx) : Ctx :=
  c.setWqe c.qp.req.wqeIndex fun w => { w with status := .locProtErr, state := .error }

/-- A call of the requester leaves the queue alone, fails a WQE or sends a packet. -/
theorem ReqOutcome.kept_cases (hout : ReqOutcome c c') :
    Kept c c' ∨
    (∃ w opcode c₁ b, Building c w opcode c₁ ∧ rxeCompleter c₁.failWqe = some (b, c')) ∨
    ∃ w opcode c₁ pkt, Building c w opcode c₁ ∧ pkt.opcode = opcode ∧
      c' = (updateState c₁ pkt (reqPayload c w opcode).toNat).emit (.sendReq pkt w.ssn) := by
  have hmasked : ∀ w, Kept c (c.masked w) := fun w => Kept.setWqe c fun _ => ⟨rfl, rfl⟩
  have hof : ∀ {c₁ c₂ : Ctx}, Kept c c₁ → c₂.qp.sq = c₁.qp.sq →
      c₂.qp.req.wqeIndex = c₁.qp.req.wqeIndex →
      c₂.qp.comp.psn = c₁.qp.comp.psn → c₂.qp.respPkts = c₁.qp.respPkts → c₂.qp.ssn = c₁.qp.ssn →
      c₂.drainView = c₁.drainView → c₂.out = c₁.out → Kept c c₂ := by
    intro c₁ c₂ h hsq hindex hcomp hresp hssn hview hout
    refine ⟨?_, ?_, hindex.trans h.index, hcomp.trans h.comp, hresp.trans h.resp, hssn.trans h.ssn,
      hview.trans h.view, hout.trans h.out⟩
    · unfold Ctx.tags
      rw [hsq]
      exact h.tags
    · rw [hsq]
      exact h.cell
  cases hout with
  | idle => exact Or.inl (Kept.refl c)
  | fence => exact Or.inl (hof (Kept.refl c) rfl rfl rfl rfl rfl rfl rfl)
  | window | full | depth => exact Or.inl (hof (hmasked _) rfl rfl rfl rfl rfl rfl rfl)
  | @invalid w =>
    exact Or.inl ((hmasked w).trans (Kept.setWqe (c.masked w)
      (f := fun w => { w with status := .locQpOpErr }) fun _ => ⟨rfl, rfl⟩))
  | noSkb c₁ skb _ _ hcredit => exact Or.inl (hof hcredit.kept rfl rfl rfl rfl rfl rfl rfl)
  | @failed w opcode c₁ _ b hbuild hcall => exact Or.inr (Or.inl ⟨w, opcode, c₁, b, hbuild, hcall⟩)
  | @sent w opcode c₁ pkt hbuild hpkt =>
    exact Or.inr (Or.inr ⟨w, opcode, c₁, pkt, hbuild, hpkt.1, rfl⟩)

theorem Building.failed_tracked (hbuild : Building c w opcode c₁) (h : Tracked c) :
    Tracked c₁.failWqe := by
  have htracked := hbuild.kept.tracked h (hbuild.shaped h.toShaped)
  exact ⟨hbuild.failed_shaped h.toShaped, htracked.num.modify _ fun _ _ => rfl, htracked.log⟩

theorem Ctx.failWqe_tags (c : Ctx) :
    c.failWqe.qp.sq.live.map SendWqe.tag = c.qp.sq.live.map SendWqe.tag :=
  RingBuf.modify_map_live _ _ fun _ => rfl

theorem Ctx.failWqe_posted (hw : w ∈ c.failWqe.qp.sq.live)
    (hposted : w.state = .posted) : (w.tag, w.state) ∈ c.tags := by
  rcases RingBuf.mem_live_modify hw with hmem | ⟨w', -, -, rfl⟩
  · exact Ctx.mem_tags hmem
  · cases hposted

theorem Building.sent_queue (hbuild : Building c w opcode c₁) (pkt : Pkt) (payload : ℕ) :
    ∃ w' next, w'.ssn = w.ssn ∧ w'.state ≠ .posted ∧
      (next = c.qp.req.wqeIndex ∨ next = (c.qp.req.wqeIndex + 1) % c.qp.sq.slots) ∧
      (updateState c₁ pkt payload).qp.sq = c₁.qp.sq.modify c.qp.req.wqeIndex (fun _ => w') ∧
      (updateState c₁ pkt payload).qp.req.wqeIndex = next ∧
      (updateState c₁ pkt payload).qp.ssn = c.qp.ssn ∧
      (updateState c₁ pkt payload).qp.req.state = c.qp.req.state ∧
      (updateState c₁ pkt payload).drains = c.drains := by
  obtain ⟨w₁, hcarried⟩ := hbuild.carried
  have hkept := hbuild.kept
  obtain ⟨numPkt, w', psn, hw', heq⟩ := updateState_eq pkt payload hcarried.next
  -- building a packet writes cells and moves none
  have hslots : c₁.qp.sq.slots = c.qp.sq.slots := by
    obtain ⟨c₂, skb, noack, out, hcredit, hload⟩ := hbuild.steps
    have hcredited : c₂.qp.sq.slots = c.qp.sq.slots := by
      cases hcredit with
      | free | held => exact RingBuf.modify_slots _ _ _
      | taken => exact (RingBuf.modify_slots _ _ _).trans (RingBuf.modify_slots _ _ _)
    cases hload with
    | none => exact hcredited
    | data => exact (RingBuf.modify_slots _ _ _).trans hcredited
  have harm : ∀ c, (armRetransTimer c).drains = c.drains := by
    intro c
    unfold armRetransTimer
    split
    · exact Ctx.drains_emit c rfl
    · rfl
  rw [heq, harm, armRetransTimer_qp]
  refine ⟨w', _, ?_, ?_, ?_, ?_, rfl, hkept.ssn, hcarried.reqState, ?_⟩
  · have hssn : w'.ssn = w₁.ssn := by
      rw [hw', updateWqe]
      split <;> rfl
    exact hssn.trans (congrArg Prod.fst hcarried.ident)
  · rw [hw', updateWqe]
    dsimp only
    split
    · split <;> decide
    · decide
  · rw [hcarried.index, hslots]
    split
    · exact Or.inr rfl
    · exact Or.inl rfl
  · rw [← hcarried.index]
    rfl
  · exact congrArg (fun v => v.2.2) hkept.view

theorem Building.sent_tracked {pkt : Pkt} (hbuild : Building c w opcode c₁) (h : Tracked c)
    (hpkt : pkt.opcode = opcode) (payload : ℕ)
    (hc' : c' = (updateState c₁ pkt payload).emit (.sendReq pkt w.ssn)) :
    Tracked c' ∧ numbers c'.qp.sq = numbers c.qp.sq ∧ c'.qp.req.state = c.qp.req.state ∧
      c'.drains = c.drains ∧ (c.honest → c'.honest) := by
  obtain ⟨w', next, hssn, hstate, hnext, hsq, hindex, htop, hreq, hdrains⟩ :=
    hbuild.sent_queue pkt payload
  obtain ⟨hbound, hunique⟩ := h.chosen hbuild.chosen
  have hsends := hbuild.sent_sends pkt payload
  have hkept := hbuild.kept
  have htracked := hkept.tracked h (hbuild.shaped h.toShaped)
  have hshaped := hbuild.sent_shaped h.toShaped hpkt payload
  -- the cell is rewritten with the number it had
  have hcell : ∀ v, c₁.qp.sq.get? c.qp.req.wqeIndex = some v → w'.ssn = v.ssn := by
    intro v hv
    obtain ⟨w₀, hw₀, hssn₀⟩ := hkept.cell v hv
    cases hbuild.chosen.next.symm.trans hw₀
    exact hssn.trans hssn₀.symm
  have hmod : Numbered (c₁.qp.sq.modify c.qp.req.wqeIndex fun _ => w') c₁.qp.req.wqeIndex
      c₁.qp.ssn :=
    htracked.num.modify _ hcell
  have hnumbers : numbers (c₁.qp.sq.modify c.qp.req.wqeIndex fun _ => w') = numbers c.qp.sq := by
    have hsame : numbers c₁.qp.sq = numbers c.qp.sq := by
      rw [Ctx.numbers_tags, Ctx.numbers_tags, hkept.tags]
    obtain ⟨w₁, hcarried⟩ := hbuild.carried
    have hget : c₁.qp.sq.get? c.qp.req.wqeIndex = some w₁ := by
      rw [← hcarried.index]
      exact hcarried.next
    exact (RingBuf.modify_map_live_of_get? hget (hcell w₁ hget)).trans hsame
  have hlen : c₁.qp.sq.live.length = c.qp.sq.live.length := by
    rw [← Ctx.length_tags, hkept.tags, Ctx.length_tags]
  have hnum : Numbered (updateState c₁ pkt payload).qp.sq
      (updateState c₁ pkt payload).qp.req.wqeIndex c.qp.ssn := by
    rw [hsq, hindex, ← hkept.ssn]
    rcases hnext with rfl | rfl
    · rw [hkept.index] at hmod
      exact hmod
    · refine hmod.of_le rfl ?_
      rw [RingBuf.modify_live_length, hlen]
      have hspare := h.shape.slots_pos
      rcases h.shape.place with hin | hpass
      · have hne := hbuild.chosen.queued
        have hle := hin.le
        rw [Nat.mod_eq_of_lt (by omega)]
        omega
      -- past the end, the index goes back to the head
      · rw [hpass.last, Nat.mod_self]
        exact Nat.zero_le _
  subst hc'
  refine ⟨⟨⟨hshaped.rc, hshaped.shape⟩, ?_, ?_⟩, ?_, hreq, ?_, ?_⟩
  · show Numbered _ _ (updateState c₁ pkt payload).qp.ssn
    rw [htop]
    exact hnum
  · intro p hp
    show p.2 ≤ (updateState c₁ pkt payload).qp.ssn
    rw [htop]
    rw [hsends] at hp
    rcases List.mem_append.1 hp with hp | hp
    · exact h.log p hp
    · rw [List.mem_singleton.1 hp]
      exact hbound
  · exact (congrArg numbers hsq).trans hnumbers
  · rw [Ctx.drains_emit _ rfl, hdrains]
  · -- a posted WQE is not the one of the packet, and has another number
    intro hhonest hdrain v hv hposted hsent
    have hv' : v ∈ (c₁.qp.sq.modify c.qp.req.wqeIndex fun _ => w').live := hsq ▸ hv
    obtain ⟨j, hj⟩ := List.mem_iff_getElem?.1 hv'
    rw [RingBuf.live_getElem?_modify] at hj
    split at hj
    · obtain ⟨v', -, rfl⟩ := Option.map_eq_some_iff.1 hj
      exact hstate hposted
    · next hji =>
      have htag : c.tags[j]? = some (v.tag, v.state) := by
        rw [← hkept.tags]
        unfold Ctx.tags
        rw [List.getElem?_map, hj]
        rfl
      unfold Ctx.tags at htag
      rw [List.getElem?_map] at htag
      obtain ⟨v₀, hv₀, heq⟩ := Option.map_eq_some_iff.1 htag
      obtain ⟨htag₀, hstate₀⟩ := Prod.mk.inj heq
      have hssn₀ : v₀.ssn = v.ssn := congrArg WqeTag.ssn htag₀
      obtain ⟨p, hp, hpssn⟩ := hsent
      rw [hsends] at hp
      rcases List.mem_append.1 hp with hp | hp
      · refine hhonest (hreq.symm.trans hdrain) v₀ (List.mem_of_getElem? hv₀)
          (hstate₀.trans hposted) ⟨p, hp, ?_⟩
        rw [hssn₀]
        exact hpssn
      · rw [List.mem_singleton.1 hp] at hpssn
        exact hji (hunique j v₀ hv₀ (hssn₀.trans hpssn.symm)).symm

end Requester

/-! ### Runs -/

/-- A step delivers the event when it ends the drain and at no other time, and then no
transmitted WQE is left in the queue. -/
structure Truthful (c c' : Ctx) : Prop where
  once : c'.drains =
    c.drains + if c.qp.req.state = .drain ∧ c'.qp.req.state = .drained then 1 else 0
  clear : c.qp.req.state ≠ .drained → c'.qp.req.state = .drained →
    c.qp.req.state = .drain ∧ ∀ w ∈ c'.qp.sq.live, ¬ c'.transmitted w.ssn

/-- What a step up to the error state shows and keeps. -/
structure DrainStep (c c' : Ctx) : Prop extends Truthful c c' where
  tracked : c'.qp.req.state ≠ .error → Tracked c'
  honest : c'.qp.req.state ≠ .error → c'.honest

section Steps

variable {c c₁ c' : Ctx} {w : SendWqe} {opcode : Opcode}

theorem Truthful.of_same (hstate : c'.qp.req.state = c.qp.req.state)
    (hdrains : c'.drains = c.drains) :
    Truthful c c' := by
  refine ⟨?_, fun hne heq => absurd (hstate.symm.trans heq) hne⟩
  rw [hstate, if_neg, hdrains]
  · rfl
  · rintro ⟨hdrain, hdrained⟩
    rw [hdrain] at hdrained
    cases hdrained

theorem Truthful.of_error (hstate : c'.qp.req.state = .error) (hdrains : c'.drains = c.drains) :
    Truthful c c' := by
  rw [← Nat.add_zero c.drains] at hdrains
  refine ⟨?_, fun _ heq => ?_⟩
  · rw [hdrains, if_neg]
    rintro ⟨-, hdrained⟩
    rw [hstate] at hdrained
    cases hdrained
  · rw [hstate] at heq
    cases heq

theorem DrainStep.of_start (h : DrainStep c₁ c') (hstate : c₁.qp.req.state = c.qp.req.state)
    (hdrains : c₁.drains = c.drains) : DrainStep c c' := by
  refine ⟨⟨?_, ?_⟩, h.tracked, h.honest⟩
  · rw [← hstate, ← hdrains]
    exact h.once
  · rw [← hstate]
    exact h.clear

theorem rxeCompleter_drainCall (h : Tracked c) (hvalid : c.qp.valid)
    (hlive : c.qp.req.state ≠ .reset) (herr : c.qp.req.state ≠ .error)
    (hcall : rxeCompleter c = some r) : DrainCall c r.2 := by
  have hsteady : Steady c (compEnter c) := ⟨⟨List.suffix_rfl, h.num⟩, rfl⟩
  rcases rxeCompleter_cases hcall with ⟨hdrop, -⟩ | ⟨hno, -⟩ | ⟨-, -, rfl⟩ | ⟨-, -, -, -, hrun⟩
  · rcases hdrop with hno | hreset
    · rw [hvalid] at hno
      cases hno
    · exact absurd hreset hlive
  · exact absurd hno herr
  · exact Or.inr (Or.inl hsteady)
  · exact (drainRule c).run (s := ⟨.getAck, none, compEnter c⟩)
      ⟨⟨h.rc, h.shape⟩, hsteady, ⟨rfl, rfl⟩, rfl, rfl⟩ hrun

theorem rxeCompleter_drainStep (h : Tracked c) (hvalid : c.qp.valid)
    (hlive : c.qp.req.state ≠ .reset) (herr : c.qp.req.state ≠ .error) (hhonest : c.honest)
    (hfine : c.qp.req.state = .drain → c.answersLast) (hcall : rxeCompleter c = some r) :
    DrainStep c r.2 := by
  have hsends := rxeCompleter_sends hcall
  have hssn : r.2.qp.ssn = c.qp.ssn := by
    have hact : sendAct c .completer = some r.2 := Option.map_eq_some_iff.2 ⟨r, hcall, rfl⟩
    have hside : SendSide c r.2 :=
      sendAct_side (a := .completer) ⟨hvalid, fun hreset => absurd hreset hlive⟩ trivial nofun nofun
        hact
    exact hside.ssn
  have htracked : r.2.qp.req.state ≠ .error → Trail c r.2 → Tracked r.2 := by
    intro hr htrail
    refine ⟨rxeCompleter_shaped h.toShaped hvalid hlive hcall hr, hssn ▸ htrail.num, ?_⟩
    rw [hsends, hssn]
    exact h.log
  rcases rxeCompleter_drainCall h hvalid hlive herr hcall with
    ⟨hr, hdrains, -⟩ | hsteady | hended
  · exact ⟨.of_error hr hdrains, fun hne => absurd hr hne, fun hne => absurd hr hne⟩
  · have hstate : r.2.qp.req.state = c.qp.req.state := congrArg Prod.fst hsteady.view
    refine ⟨.of_same hstate hsteady.drains, fun hr => htracked hr hsteady.toTrail, fun _ => ?_⟩
    exact Ctx.honest_of_tags hhonest hstate
      (fun w hw _ => hsteady.tags.subset (Ctx.mem_tags hw)) hsends
  · refine ⟨⟨?_, fun _ _ => ⟨hended.drain, fun w hw hsent => ?_⟩⟩,
      fun hr => htracked hr hended.toTrail, fun _ hdrain => ?_⟩
    · rw [if_pos ⟨hended.drain, hended.drained⟩]
      exact hended.once
    · exact hended.clear (hfine hended.drain) w hw ((Ctx.transmitted_congr hsends _).1 hsent)
    -- the QP has left DRAIN, and nothing is to be shown
    · rw [hended.drained] at hdrain
      cases hdrain

theorem ReqOutcome.drainStep (hout : ReqOutcome c c') (h : Tracked c) (hvalid : c.qp.valid)
    (hlive : c.qp.req.state ≠ .reset) (herr : c.qp.req.state ≠ .error) (hhonest : c.honest)
    (hfine : c.qp.req.state = .drain → c.answersLast) : DrainStep c c' := by
  rcases hout.kept_cases with hkept | ⟨w, opcode, c₁, b, hbuild, hcall⟩ |
    ⟨w, opcode, c₁, pkt, hbuild, hpkt, hc'⟩
  · refine ⟨.of_same (congrArg Prod.fst hkept.view) (congrArg (fun v => v.2.2) hkept.view),
      fun hr => hkept.tracked h (hout.shaped h.toShaped hvalid hlive hr),
      fun _ => hkept.honest hhonest⟩
  -- the completer is called for the WQE that failed
  · have hkept := hbuild.kept
    have hstate : c₁.failWqe.qp.req.state = c.qp.req.state := congrArg Prod.fst hkept.view
    have hdrains : c₁.failWqe.drains = c.drains := congrArg (fun v => v.2.2) hkept.view
    have hsends : sends c₁.failWqe.out = sends c.out := congrArg sends hkept.out
    have htags : c₁.failWqe.qp.sq.live.map SendWqe.tag = c.qp.sq.live.map SendWqe.tag := by
      rw [Ctx.failWqe_tags]
      have hfst := congrArg (List.map Prod.fst) hkept.tags
      unfold Ctx.tags at hfst
      rw [List.map_map, List.map_map] at hfst
      exact hfst
    refine (rxeCompleter_drainStep (hbuild.failed_tracked h) ?_ ?_ ?_ ?_ ?_ hcall).of_start hstate
      hdrains
    · exact (congrArg (fun f => f.2.1) hbuild.fixed).trans hvalid
    · rw [hstate]
      exact hlive
    · rw [hstate]
      exact herr
    · refine Ctx.honest_of_tags hhonest hstate (fun w hw hposted => ?_) hsends
      rw [← hkept.tags]
      exact Ctx.failWqe_posted hw hposted
    · intro hdrain
      exact (hfine (hstate.symm.trans hdrain)).congr htags hkept.comp
        (congrArg (fun v => v.2.1) hkept.view) hkept.resp hsends
  · obtain ⟨htracked, -, hstate, hdrains, hhonest'⟩ := hbuild.sent_tracked h hpkt _ hc'
    exact ⟨.of_same hstate hdrains, fun _ => htracked, fun _ => hhonest' hhonest⟩

theorem Chosen.drained_empty (h : Chosen c w) (hdrained : c.qp.req.state = .drained)
    (hposted : ∀ w ∈ c.qp.sq.live, w.state = .posted)
    (hindex : c.qp.sq.live = [] ∨ c.qp.req.wqeIndex = 0) : c.qp.sq.live = [] := by
  rcases hindex with hempty | hzero
  · exact hempty
  · by_contra hne
    have hproc := h.drain (Or.inr hdrained)
    have hnext : c.qp.sq.get? c.qp.req.wqeIndex = some w := h.next
    rw [hzero, RingBuf.get?_of_lt (List.length_pos_iff.2 hne)] at hnext
    rw [hposted w (List.mem_of_getElem? hnext)] at hproc
    cases hproc

/-- The call in which `req_next_wqe` ends the drain: the QP stays drained, and nothing is
queued but posted WQEs. -/
theorem ReqOutcome.drained (hout : ReqOutcome c c') (h : Tracked c) (hvalid : c.qp.valid)
    (hdrained : c.qp.req.state = .drained) (hposted : ∀ w ∈ c.qp.sq.live, w.state = .posted)
    (hindex : c.qp.sq.live = [] ∨ c.qp.req.wqeIndex = 0) :
    c'.qp.req.state = .drained ∧
      ∀ w ∈ c'.qp.sq.live, sends c'.out = sends c.out ∧ (w.tag, w.state) ∈ c.tags := by
  rcases hout.kept_cases with hkept | ⟨w, opcode, c₁, b, hbuild, hcall⟩ |
    ⟨w, opcode, c₁, pkt, hbuild, hpkt, hc'⟩
  · refine ⟨(congrArg Prod.fst hkept.view).trans hdrained,
      fun w hw => ⟨congrArg sends hkept.out, ?_⟩⟩
    rw [← hkept.tags]
    exact Ctx.mem_tags hw
  -- a drained QP sends from a processed WQE only, and none is queued
  · have hempty := hbuild.chosen.drained_empty hdrained hposted hindex
    have hkept := hbuild.kept
    have hstate : c₁.failWqe.qp.req.state = .drained :=
      (congrArg Prod.fst hkept.view).trans hdrained
    have hnil : c₁.failWqe.tags = [] := by
      rw [← List.length_eq_zero_iff, Ctx.length_tags, Ctx.failWqe]
      refine (RingBuf.modify_live_length _ _ _).trans ?_
      rw [← Ctx.length_tags, hkept.tags, Ctx.length_tags, hempty]
      rfl
    rcases rxeCompleter_drainCall (hbuild.failed_tracked h)
      ((congrArg (fun f => f.2.1) hbuild.fixed).trans hvalid) (by rw [hstate]; nofun)
      (by rw [hstate]; nofun) hcall with ⟨-, -, hne⟩ | hsteady | hended
    · exact absurd hnil hne
    · refine ⟨(congrArg Prod.fst hsteady.view).trans hstate, fun w hw => ?_⟩
      have hsuffix := hsteady.tags
      rw [hnil, List.suffix_nil] at hsuffix
      have hmem : (w.tag, w.state) ∈ c'.tags := Ctx.mem_tags hw
      rw [hsuffix] at hmem
      cases hmem
    · have hdrain := hended.drain
      rw [hstate] at hdrain
      cases hdrain
  · have hempty := hbuild.chosen.drained_empty hdrained hposted hindex
    obtain ⟨-, hnumbers, hstate, -, -⟩ := hbuild.sent_tracked h hpkt _ hc'
    refine ⟨hstate.trans hdrained, fun w hw => ?_⟩
    have hmem : w.ssn ∈ numbers c'.qp.sq := List.mem_map_of_mem hw
    rw [hnumbers, numbers, hempty] at hmem
    cases hmem

theorem rxeRequester_drainStep (h : Tracked c) (hvalid : c.qp.valid)
    (hlive : c.qp.req.state ≠ .reset) (herr : c.qp.req.state ≠ .error) (hhonest : c.honest)
    (hcalm : c.qp.req.state = .drain → c.qp.req.needRetry = false ∨ c.qp.sq.live = [])
    (hfine : c.qp.req.state = .drain → c.answersLast) (hcall : rxeRequester c = some r) :
    DrainStep c r.2 := by
  obtain ⟨b, c'⟩ := r
  rcases rxeRequester_cases h.rc hcall with ⟨hno, -⟩ | ⟨hreset, -⟩ | ⟨-, -, -, hout⟩
  · rcases hno with hno | hno
    · rw [hvalid] at hno
      cases hno
    · exact absurd hno herr
  · exact absurd hreset hlive
  · obtain ⟨hstate, hdrains⟩ : (reqStart c).qp.req.state = c.qp.req.state ∧
        (reqStart c).drains = c.drains := by
      unfold reqStart reqRetry
      split
      · split <;> exact ⟨rfl, rfl⟩
      · exact ⟨rfl, rfl⟩
    have hstart := reqStart_tracked h
    -- without a retry, the start of the call changes a flag at most
    have hhonest' : (reqStart c).honest := by
      intro hdrain
      rw [hstate] at hdrain
      rw [reqStart_drain (hcalm hdrain)]
      exact hhonest hdrain
    have hfine' : (reqStart c).qp.req.state = .drain → (reqStart c).answersLast := by
      intro hdrain
      rw [hstate] at hdrain
      rw [reqStart_drain (hcalm hdrain)]
      exact hfine hdrain
    have hvalid' : (reqStart c).qp.valid :=
      (congrArg (fun f => f.2.1) (reqStart_rel fixedRel c)).trans hvalid
    rcases reqDrain_cases hstart with hsame | ⟨hdrain, heq, hposted, hindex⟩
    · rw [hsame] at hout
      exact (hout.drainStep hstart hvalid' (by rw [hstate]; exact hlive)
        (by rw [hstate]; exact herr) hhonest' hfine').of_start hstate hdrains
    · rw [heq] at hout
      have htracked : Tracked ({ reqStart c with qp.req.state := .drained }.emit .sqDrained) := by
        refine Tracked.emit ?_ rfl
        exact ⟨⟨hstart.rc, hstart.shape⟩, hstart.num, hstart.log⟩
      have hstep := hout.drainStep htracked hvalid' nofun nofun nofun nofun
      obtain ⟨hdrained, hleft⟩ := hout.drained htracked hvalid' rfl hposted hindex
      refine ⟨⟨?_, fun _ _ => ⟨hstate.symm.trans hdrain, fun w hw hsent => ?_⟩⟩, hstep.tracked,
        hstep.honest⟩
      · rw [if_pos ⟨hstate.symm.trans hdrain, hdrained⟩, hstep.once, if_neg (by rintro ⟨⟨⟩, -⟩),
          Ctx.drains_sqDrained]
        exact congrArg (· + 1) hdrains
      -- what is left was posted before the call, and `honest` speaks about it
      · obtain ⟨hsends, hmem⟩ := hleft w hw
        obtain ⟨w₀, hw₀, hsame⟩ := List.mem_map.1 hmem
        obtain ⟨htag, -⟩ := Prod.mk.inj hsame
        have hssn : w₀.ssn = w.ssn := congrArg WqeTag.ssn htag
        refine hhonest' hdrain w₀ hw₀ (hposted w₀ hw₀) ?_
        rw [hssn]
        rw [Ctx.transmitted_congr hsends] at hsent
        exact (Ctx.transmitted_congr (sends_emit _ rfl) _).1 hsent

theorem postSend_drain (h : Tracked c) (hhonest : c.honest) (hfull : c.qp.sq.full = false)
    (wr : SendWr) (mask : WrMask) (length : ℕ) :
    let c' := { c with
      qp.sq := c.qp.sq.push (initSendWqe c.qp.type c.dev wr mask length (c.qp.ssn + 1))
      qp.ssn := c.qp.ssn + 1 }
    Tracked c' ∧ c'.honest := by
  refine ⟨⟨⟨h.rc, h.shape.push hfull fun _ => rfl⟩, h.num.push h.shape.spare fun _ => rfl,
    fun p hp => Nat.le_succ_of_le (h.log p hp)⟩, fun hdrain w hw hposted => ?_⟩
  obtain ⟨slot, cells, hfree⟩ := List.exists_cons_of_ne_nil h.shape.spare
  have hw' : w ∈ c.qp.sq.live ++
      [initSendWqe c.qp.type c.dev wr mask length (c.qp.ssn + 1) slot] := by
    have hpush :=
      RingBuf.push_live (initSendWqe c.qp.type c.dev wr mask length (c.qp.ssn + 1)) hfree
    rw [hpush] at hw
    exact hw
  rcases List.mem_append.1 hw' with hold | hnew
  · exact hhonest hdrain w hold hposted
  · rintro ⟨p, hp, hssn⟩
    -- the new number is above all that have been sent
    have hbound := h.log p hp
    rw [hssn, List.mem_singleton.1 hnew] at hbound
    exact Nat.not_succ_le_self _ hbound

theorem rxePostSend_drainStep (h : Tracked c) (hhonest : c.honest) (wrs : List SendWr) :
    DrainStep c (rxePostSend c wrs).2 := by
  obtain ⟨n, -, sq, es, hes, hc, -, -⟩ := rxePostSend_frame c wrs
  have hstate : (rxePostSend c wrs).2.qp.req.state = c.qp.req.state := by rw [hc]
  have hdrains : (rxePostSend c wrs).2.drains = c.drains := by
    have hnone : es.filterMap Event.drained? = [] := by
      refine List.filterMap_eq_nil_iff.2 fun e he => ?_
      rw [hes e he]
      rfl
    rw [hc]
    unfold Ctx.drains seen
    rw [List.filterMap_append, hnone, List.append_nil]
  have hloop : Tracked (rxePostSend c wrs).2 ∧ (rxePostSend c wrs).2.honest := by
    refine rxePostSend_inv (P := fun c => Tracked c ∧ c.honest)
      (fun _ _ hfull h => postSend_drain h.1 h.2 hfull _ _ _)
      (fun c h => ⟨h.1.emit rfl, ?_⟩) ⟨h, hhonest⟩ wrs
    exact Ctx.honest_of_tags h.2 rfl (fun w hw _ => Ctx.mem_tags hw) (sends_emit _ rfl)
  exact ⟨.of_same hstate hdrains, fun _ => hloop.1, fun _ => hloop.2⟩

theorem setQpState_drain {state : Option IbQpState} (hrc : c.qp.type = .rc)
    (hreset : state ≠ some .reset) (h : setQpState c state = some c') :
    c'.drains = c.drains ∧ (c'.qp.req.state = c.qp.req.state ∨
      c'.qp.req.state ≠ .drained ∧ (c'.qp.req.state = .drain → state = some .sqd)) := by
  rcases setQpState_cases h with ⟨hno, -⟩ | ⟨-, rfl⟩ | ⟨hsqd, -, ⟨-, rfl⟩ | ⟨hno, -⟩⟩ |
    ⟨req, resp, rfl, hreq, -⟩
  · exact absurd hno hreset
  · refine ⟨Ctx.drains_of_seen (rxeQpError_rel (seenRel drained_coarse) c), Or.inr ?_⟩
    rw [rxeQpError_reqState]
    exact ⟨nofun, nofun⟩
  · refine ⟨?_, Or.inr ⟨nofun, fun _ => hsqd⟩⟩
    rw [Ctx.drains_emit _ rfl, Ctx.drains_emit _ rfl]
    rfl
  · exact absurd hrc hno
  · refine ⟨rfl, hreq.imp id fun h => ?_⟩
    rcases h.2 with rfl | rfl <;> exact ⟨nofun, nofun⟩

theorem setQpState_drainStep {state : Option IbQpState} (h : Tracked c) (hhonest : c.honest)
    (hreset : state ≠ some .reset)
    (hsqd : state = some .sqd → ∀ w ∈ c.qp.sq.live, w.state = .posted → ¬ c.transmitted w.ssn)
    (hset : setQpState c state = some c') : DrainStep c c' := by
  obtain ⟨hrc, hsends⟩ := setQpState_sends h.rc hset
  obtain ⟨hdrains, hstate⟩ := setQpState_drain h.rc hreset hset
  refine ⟨?_, fun hr => ?_, fun hr hdrain => ?_⟩
  · rcases hstate with hsame | ⟨hne, -⟩
    · exact .of_same hsame hdrains
    · refine ⟨?_, fun _ heq => absurd heq hne⟩
      -- no modify verb leads to DRAINED
      rw [hdrains, if_neg fun hboth => hne hboth.2]
      rfl
  · obtain ⟨hsq, hindex, -, hssn⟩ := setQpState_sq h.rc hreset hset hr
    refine ⟨⟨hrc, ?_⟩, ?_, ?_⟩
    · rw [hsq, hindex]
      exact h.shape
    · rw [hsq, hindex, hssn]
      exact h.num
    · rw [hsends, hssn]
      exact h.log
  · obtain ⟨hsq, -, -, -⟩ := setQpState_sq h.rc hreset hset hr
    rw [hsq]
    intro w hw hposted
    rw [Ctx.transmitted_congr hsends]
    rcases hstate with hsame | ⟨-, hstart⟩
    · exact hhonest (hsame ▸ hdrain) w hw hposted
    · exact hsqd (hstart hdrain) w hw hposted

end Steps

/-- Up to the error state and without a reset: a drain begins when no transmitted WQE has been
rewound, nothing is retried while it lasts, and a response that finds or leaves everything sent
acknowledged has no transmitted WQE behind it. -/
def DrainOk (c : Ctx) (a : SendAct) : Prop :=
  c.qp.req.state ≠ .error ∧
    match a with
    | .modify attr => attr.qpState ≠ some .reset ∧ (attr.qpState = some .sqd →
        ∀ w ∈ c.qp.sq.live, w.state = .posted → ¬ c.transmitted w.ssn)
    | .requester => c.qp.req.state = .drain →
        (c.qp.req.needRetry = false ∨ c.qp.sq.live = []) ∧ c.answersLast
    | .completer => c.qp.req.state = .drain → c.answersLast
    | _ => True

/-- What holds up to the error state. -/
structure Draining (c : Ctx) : Prop where
  valid : c.qp.valid
  live : c.qp.req.state ≠ .reset
  tracked : c.qp.req.state ≠ .error → Tracked c
  honest : c.qp.req.state ≠ .error → c.honest

theorem Draining.drainStep {a : SendAct} (h : Draining c) (hok : DrainOk c a)
    (hact : sendAct c a = some c') : DrainStep c c' := by
  have htracked := h.tracked hok.1
  have hhonest := h.honest hok.1
  cases a with
  | post wrs =>
    cases hact
    exact rxePostSend_drainStep htracked hhonest wrs
  | requester =>
    obtain ⟨r, hcall, rfl⟩ := Option.map_eq_some_iff.1 hact
    exact rxeRequester_drainStep htracked h.valid h.live hok.1 hhonest (fun hd => (hok.2 hd).1)
      (fun hd => (hok.2 hd).2) hcall
  | completer =>
    obtain ⟨r, hcall, rfl⟩ := Option.map_eq_some_iff.1 hact
    exact rxeCompleter_drainStep htracked h.valid h.live hok.1 hhonest hok.2 hcall
  | recv pkt =>
    cases hact
    unfold rxeCompQueuePkt
    refine ⟨.of_same rfl (Ctx.drains_emit _ rfl), fun _ => ?_, fun _ => ?_⟩
    · refine Tracked.emit ?_ rfl
      exact ⟨⟨htracked.rc, htracked.shape⟩, htracked.num, htracked.log⟩
    · exact Ctx.honest_of_tags hhonest rfl (fun w hw _ => Ctx.mem_tags hw) (sends_emit _ rfl)
  | timer =>
    cases hact
    unfold retransmitTimer
    split
    · refine ⟨.of_same rfl (Ctx.drains_emit _ rfl), fun _ => ?_, fun _ => ?_⟩
      · refine Tracked.emit ?_ rfl
        exact ⟨⟨htracked.rc, htracked.shape⟩, htracked.num, htracked.log⟩
      · exact Ctx.honest_of_tags hhonest rfl (fun w hw _ => Ctx.mem_tags hw) (sends_emit _ rfl)
    · exact ⟨.of_same rfl rfl, fun _ => htracked, fun _ => hhonest⟩
  | error =>
    cases hact
    exact ⟨.of_error (rxeQpError_reqState c)
      (Ctx.drains_of_seen (rxeQpError_rel (seenRel drained_coarse) c)),
      fun hr => absurd (rxeQpError_reqState c) hr, fun hr => absurd (rxeQpError_reqState c) hr⟩
  | modify attr =>
    obtain ⟨r, hcall, rfl⟩ := Option.map_eq_some_iff.1 hact
    obtain ⟨skb, n, rd, res, head, rfl | ⟨-, hset⟩⟩ := rxeQpFromAttr_cases hcall
    · exact ⟨.of_same rfl rfl, fun _ => ⟨⟨htracked.rc, htracked.shape⟩, htracked.num, htracked.log⟩,
        fun _ => hhonest⟩
    · have hstep := setQpState_drainStep (c := ringAttrs c skb n rd res head attr)
        ⟨⟨htracked.rc, htracked.shape⟩, htracked.num, htracked.log⟩ hhonest hok.2.1 hok.2.2 hset
      exact ⟨⟨hstep.once, hstep.clear⟩, hstep.tracked, hstep.honest⟩
  | env dev skb cq =>
    cases hact
    exact ⟨.of_same rfl rfl, fun _ => ⟨⟨htracked.rc, htracked.shape⟩, htracked.num, htracked.log⟩,
      fun _ => hhonest⟩

theorem Draining.step {a : SendAct} (h : Draining c) (hok : DrainOk c a)
    (hact : sendAct c a = some c') : Draining c' := by
  have hstep := h.drainStep hok hact
  have hreset : ∀ attr, a = .modify attr → attr.qpState ≠ some .reset := by
    rintro attr rfl
    exact hok.2.1
  have hlast := sendAct_live h.valid h.live hreset hact
  exact ⟨hlast.1, hlast.2, hstep.tracked, hstep.honest⟩

end Rxe
