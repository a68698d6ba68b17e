/-
Retried reads.

A read is answered by a run of response packets.  When some of them are missing, the
requester sends the request again for the rest: `req_retry` recomputes the address from
`first_psn`, but the length in the request is always that of the whole read.

* `readRun_inv` — what is known of a read at the head of the send queue after any number
  of responses, timeouts and retries;
* `read_request_iff` — a request asks for what is missing exactly when nothing has been
  received: its PSN is always right, its length is wrong after the first response;
* `read_request_overlaps` — a read of three packets of which one and then two arrive.
-/
import Rxe.CompStep
import Rxe.SendRule

namespace Rxe

/-! ### A call touches one WQE -/

section Only

variable {c c' c₁ : Ctx} {b : Bool} {w : SendWqe} {opcode : Opcode}

theorem masked_only (hi : c.qp.req.wqeIndex < c.qp.sq.live.length) (w : SendWqe) :
    OnlyWqe c.qp.req.wqeIndex c (c.masked w) :=
  OnlyWqe.setWqe hi fun _ => rfl

theorem Credited.only (h : Credited (c.masked w) w opcode c₁)
    (hi : c.qp.req.wqeIndex < c.qp.sq.live.length) :
    OnlyWqe c.qp.req.wqeIndex c c₁ ∧ c₁.qp.req.wqeIndex = c.qp.req.wqeIndex := by
  have hmasked := masked_only hi w
  cases h with
  | free | held => exact ⟨hmasked, rfl⟩
  | taken =>
    have hset := OnlyWqe.setWqe (c := c.masked w) (f := fun w => { w with hasRdAtomic := true })
      (by rwa [hmasked.live_length]) fun _ => rfl
    exact ⟨(hmasked.trans hset).trans (.of_view rfl), rfl⟩

theorem Building.only (h : Building c w opcode c₁)
    (hi : c.qp.req.wqeIndex < c.qp.sq.live.length) :
    OnlyWqe c.qp.req.wqeIndex c c₁ ∧ c₁.qp.req.wqeIndex = c.qp.req.wqeIndex := by
  obtain ⟨c₂, skb, noack, out, hcredit, hload⟩ := h.steps
  obtain ⟨honly, hindex⟩ := hcredit.only hi
  have hinit : OnlyWqe c.qp.req.wqeIndex c
      { c₂ with skb, qp.req.noackPkts := noack, qp.reqSkbOut := out } := honly.trans (.of_view rfl)
  cases hload with
  | none => exact ⟨hinit, hindex⟩
  | data _ dma =>
    refine ⟨hinit.trans ?_, hindex⟩
    rw [← hindex]
    exact .setWqe (by rwa [hinit.live_length, hindex]) fun _ => rfl

theorem reqNext_only (hrc : c.qp.type = .rc) (hready : c.qp.req.state = .ready)
    (hi : c.qp.req.wqeIndex ≤ c.qp.sq.live.length) (h : reqNext c = some (b, c')) :
    CalledOnly c c' := by
  -- what is chosen is the WQE at `req.wqe_index`, and it is queued
  have hlive : ∀ {w}, Chosen c w → c.qp.sq.live[c.qp.req.wqeIndex]? = some w :=
    fun hw => RingBuf.live_of_get? hi hw.queued hw.next
  have hlt : ∀ {w}, Chosen c w → c.qp.req.wqeIndex < c.qp.sq.live.length :=
    fun hw => (List.getElem?_eq_some_iff.1 (hlive hw)).1
  have hout := reqNext_outcome hrc h
  rw [reqDrain_ready hready] at hout
  cases hout with
  | idle | fence => exact .of_view rfl
  | window hw | full hw | depth hw =>
    exact Or.inl ⟨(masked_only (hlt hw) _).trans (.of_view rfl), Or.inl rfl⟩
  | invalid hw =>
    have hmasked := masked_only (hlt hw) ‹SendWqe›
    exact Or.inl ⟨hmasked.trans (.setWqe (by rw [hmasked.live_length]; exact hlt hw) fun _ => rfl),
      Or.inl rfl⟩
  | noSkb c₁ skb hw _ hcredit =>
    obtain ⟨honly, hindex⟩ := hcredit.only (hlt hw)
    exact Or.inl ⟨honly.trans (.of_view rfl), Or.inl hindex⟩
  | @failed w opcode c₁ _ b' hbuild hcall =>
    obtain ⟨honly, hindex⟩ := hbuild.only (hlt hbuild.chosen)
    have hfailed := OnlyWqe.setWqe (c := c₁) (i := c₁.qp.req.wqeIndex)
      (f := fun w => { w with status := .locProtErr, state := .error })
      (by rw [hindex, honly.live_length]; exact hlt hbuild.chosen) fun _ => rfl
    exact .after honly hindex (Or.inr ⟨_, b', hfailed, rfl, hcall⟩)
  | @sent w opcode c₁ pkt hbuild _ =>
    obtain ⟨honly, hindex⟩ := hbuild.only (hlt hbuild.chosen)
    have hi₁ : c₁.qp.req.wqeIndex < c₁.qp.sq.live.length := by
      rw [hindex, honly.live_length]
      exact hlt hbuild.chosen
    obtain ⟨hupd, hnext⟩ := updateState_only pkt (reqPayload c w opcode).toNat
      (List.getElem?_eq_getElem hi₁)
    refine .after honly hindex (Or.inl ⟨hupd.trans (.sendReq pkt ?_), hnext.imp_right (⟨hi₁, ·⟩)⟩)
    -- the WQE still has the number it was chosen with
    have hmap := congrArg (·[c₁.qp.req.wqeIndex]?) (hupd.ssn.trans honly.ssn)
    simp only [List.getElem?_map] at hmap
    rw [hmap, hindex, hlive hbuild.chosen]
    rfl

end Only

/-! ### Runs -/

/-- The response that continues the read at the head of the send queue, not its last one,
where `do_read` accepts it. -/
structure NextResponse (c : Ctx) (w : SendWqe) (pkt : Pkt) : Prop where
  head : c.sqHead = some w
  pending : w.state = .pending
  noRetry : c.qp.req.needRetry = false
  psn : pkt.psn = c.qp.comp.psn
  last : psnCompare pkt.psn w.lastPsn ≤ 0
  opcode : pkt.opcode = .rcRdmaReadResponseFirst ∧ pkt.aethType = aethAck ∨
    pkt.opcode = .rcRdmaReadResponseMiddle
  seq : ackSeqOk c.qp.comp.opcode pkt
  size : pkt.payload.length = c.qp.mtu
  copied : (copyDataIn c.dev c.qp.pd (some .localWrite) w.dma pkt.payload).2.2 = .ok ()

/-- A response, of any kind, whose PSN is ahead of the one that is missing. -/
structure EarlyResponse (c : Ctx) (w : SendWqe) (pkt : Pkt) : Prop where
  head : c.sqHead = some w
  noRetry : c.qp.req.needRetry = false
  ahead : w.state = .pending → 0 < psnCompare pkt.psn w.lastPsn ∨
    0 < psnCompare pkt.psn c.qp.comp.psn

/-- What can happen to a read: calls of the requester, work requests posted behind it,
timeouts, and responses. -/
inductive ReadRun (c₀ : Ctx) : Ctx → Prop
  | start : ReadRun c₀ c₀
  | requester {c c' : Ctx} {b : Bool} (hrun : ReadRun c₀ c)
      (hcall : rxeRequester c = some (b, c')) : ReadRun c₀ c'
  | post {c c' : Ctx} {ok : Bool} {wrs : List SendWr} (hrun : ReadRun c₀ c)
      (hcall : rxePostSend c wrs = (ok, c')) : ReadRun c₀ c'
  | timeout {c c' : Ctx} {b : Bool} (hrun : ReadRun c₀ c)
      (hcall : rxeCompleter (retransmitTimer c) = some (b, c')) : ReadRun c₀ c'
  | response {c c' : Ctx} {b : Bool} {w : SendWqe} {pkt : Pkt} (hrun : ReadRun c₀ c)
      (hnext : NextResponse c w pkt)
      (hcall : rxeCompleter (rxeCompQueuePkt c pkt) = some (b, c')) : ReadRun c₀ c'
  | early {c c' : Ctx} {b : Bool} {w : SendWqe} {pkt : Pkt} (hrun : ReadRun c₀ c)
      (hearly : EarlyResponse c w pkt)
      (hcall : rxeCompleter (rxeCompQueuePkt c pkt) = some (b, c')) : ReadRun c₀ c'

/-- A read at the head of the send queue of which nothing has been received; it is next to
be sent, or it was sent while it was behind other WQEs. -/
structure ReadStart (c : Ctx) (w : SendWqe) : Prop where
  rc : c.qp.type = .rc
  valid : c.qp.valid
  ready : c.qp.req.state = .ready
  head : c.sqHead = some w
  read : w.ibwr.opcode = .rdmaRead
  mask : w.mask = wrOpcodeMask .rdmaRead .rc
  addr : w.ibwr.remoteAddr < 2 ^ 64
  resid : w.dma.resid = w.dma.length
  sent :
    (w.state = .posted ∧ c.qp.req.wqeIndex = 0 ∧ c.qp.req.needRetry = false ∧
      c.qp.req.psn = c.qp.comp.psn ∧ w.iova = w.ibwr.remoteAddr) ∨
    (w.state = .pending ∧ 0 < c.qp.req.wqeIndex ∧
      c.qp.req.wqeIndex ≤ c.qp.sq.live.length ∧ w.firstPsn = c.qp.comp.psn)
  psn_lt : c.qp.comp.psn < psnMod
  timeout : c.qp.comp.timeout = false
  quiet : c.qp.respPkts = []
  mtu : 0 < s32 c.qp.mtu
  free : c.qp.sq.free ≠ []
  -- the `ssn` tells its packets from those of the WQEs behind it
  ssn : w.ssn ≤ c.qp.ssn
  others : w.ssn ∉ (c.qp.sq.live.map SendWqe.ssn).tail

/-! ### What is known of the read -/

/-- The read `w` at the head of the send queue; `w₀` is the read as it was posted and `k`
the number of responses received.  It is waiting to be sent, or it has been sent. -/
structure ReadAt (w₀ : SendWqe) (k : ℕ) (c : Ctx) (w : SendWqe) : Prop where
  ibwr : w.ibwr = w₀.ibwr
  mask : w.mask = wrOpcodeMask .rdmaRead .rc
  length : w.dma.length = w₀.dma.length
  ssn : w.ssn = w₀.ssn
  resid : w.dma.resid + k * c.qp.mtu = w₀.dma.length
  phase :
    (w.state = .posted ∧ c.qp.req.wqeIndex = 0 ∧ c.qp.req.needRetry = false ∧
      c.qp.req.psn = c.qp.comp.psn ∧ (k = 0 → w.iova = w₀.ibwr.remoteAddr)) ∨
    (w.state = .pending ∧ 0 < c.qp.req.wqeIndex ∧
      c.qp.req.wqeIndex ≤ c.qp.sq.live.length ∧ (k = 0 → w.firstPsn = c.qp.comp.psn))

/-- Invariant of a run, for a read that starts with PSN `psn`. -/
structure ReadInv (w₀ : SendWqe) (psn k : ℕ) (c : Ctx) (w : SendWqe) : Prop where
  rc : c.qp.type = .rc
  valid : c.qp.valid
  ready : c.qp.req.state = .ready
  timeout : c.qp.comp.timeout = false
  quiet : c.qp.respPkts = []
  mtu : 0 < s32 c.qp.mtu
  free : c.qp.sq.free ≠ []
  ssn : w₀.ssn ≤ c.qp.ssn
  others : w₀.ssn ∉ (c.qp.sq.live.map SendWqe.ssn).tail
  head : c.qp.sq.live[0]? = some w
  compPsn : c.qp.comp.psn = psnMask (psn + k)
  wqe : ReadAt w₀ k c w

/-- A request for the read with `k` responses received. -/
structure ReadReq (w₀ : SendWqe) (psn k : ℕ) (pkt : Pkt) : Prop where
  psn : pkt.psn = psnMask (psn + k)
  len : pkt.reth.len = w₀.dma.length
  va : k = 0 → pkt.reth.va = w₀.ibwr.remoteAddr

section Inv

variable {w₀ w : SendWqe} {psn k : ℕ} {c c' : Ctx} {b : Bool}

theorem ReadInv.counted (h : ReadInv w₀ psn k c w) (hc : Counted c c') :
    ReadInv w₀ psn k c' w := by
  obtain ⟨hview, htimeout, hretry⟩ := hc
  have hsq : c'.qp.sq = c.qp.sq := congrArg (·.qp.sq) hview
  have hindex : c'.qp.req.wqeIndex = c.qp.req.wqeIndex := congrArg (·.qp.req.wqeIndex) hview
  have hpsn : c'.qp.comp.psn = c.qp.comp.psn := congrArg (·.qp.comp.psn) hview
  have hmtu : c'.qp.mtu = c.qp.mtu := congrArg (·.qp.mtu) hview
  have hreq : c'.qp.req.psn = c.qp.req.psn := congrArg (·.qp.req.psn) hview
  have hhead : c.sqHead = some w := List.head?_eq_getElem?.trans h.head
  refine ⟨(congrArg (·.qp.type) hview).trans h.rc, (congrArg (·.qp.valid) hview).trans h.valid,
    (congrArg (·.qp.req.state) hview).trans h.ready, htimeout,
    (congrArg (·.qp.respPkts) hview).trans h.quiet, hmtu ▸ h.mtu, hsq ▸ h.free,
    (congrArg (·.qp.ssn) hview).symm ▸ h.ssn, hsq ▸ h.others, hsq ▸ h.head, hpsn.trans h.compPsn,
    ⟨h.wqe.ibwr, h.wqe.mask, h.wqe.length, h.wqe.ssn, hmtu ▸ h.wqe.resid, ?_⟩⟩
  rw [hindex, hpsn, hreq, hsq]
  -- a retry is asked for only where the head has been sent
  rcases h.wqe.phase with ⟨hst, hi, hno, hrest⟩ | hpend
  · refine Or.inl ⟨hst, hi, ?_, hrest⟩
    by_contra hyes
    rcases hretry (by simpa using hyes) with hold | ⟨v, hv, hvst⟩
    · rw [hno] at hold
      cases hold
    · obtain rfl : w = v := Option.some_inj.1 (hhead.symm.trans hv)
      exact hvst hst
  · exact Or.inr hpend

theorem ReadInv.state (h : ReadInv w₀ psn k c w) : w.state = .posted ∨ w.state = .pending :=
  h.wqe.phase.imp (·.1) (·.1)

theorem ReadInv.sqHead (h : ReadInv w₀ psn k c w) : c.sqHead = some w :=
  List.head?_eq_getElem?.trans h.head

theorem ReadInv.completer (h : ReadInv w₀ psn k c w) (hcall : rxeCompleter c = some (b, c')) :
    (Dead c' ∨ ReadInv w₀ psn k c' w) ∧ Rxe.sends c'.out = Rxe.sends c.out :=
  ⟨(rxeCompleter_noPkt h.rc h.valid h.ready h.quiet h.sqHead h.state hcall).imp_right h.counted,
    rxeCompleter_sends hcall⟩

theorem ReadInv.posted (h : ReadInv w₀ psn k c w) (hstate : w.state = .posted) :
    c.qp.req.wqeIndex = 0 ∧ c.qp.req.needRetry = false ∧ c.qp.req.psn = c.qp.comp.psn ∧
      (k = 0 → w.iova = w₀.ibwr.remoteAddr) := by
  rcases h.wqe.phase with ⟨-, hposted⟩ | ⟨hst, -⟩
  · exact hposted
  · rw [hst] at hstate
    cases hstate

theorem ReadInv.pending (h : ReadInv w₀ psn k c w) (hstate : w.state = .pending) :
    0 < c.qp.req.wqeIndex ∧ c.qp.req.wqeIndex ≤ c.qp.sq.live.length ∧
      (k = 0 → w.firstPsn = c.qp.comp.psn) := by
  rcases h.wqe.phase with ⟨hst, -⟩ | ⟨-, hpending⟩
  · rw [hst] at hstate
    cases hstate
  · exact hpending

theorem ReadInv.only (h : ReadInv w₀ psn k c w) (hstate : w.state = .pending)
    (hindex : 0 < c'.qp.req.wqeIndex) (hle : c'.qp.req.wqeIndex ≤ c.qp.sq.live.length)
    {i : ℕ} (hi : i ≠ 0) (honly : OnlyWqe i c c') : ReadInv w₀ psn k c' w := by
  have henv := honly.env
  have hpsn : c'.qp.comp.psn = c.qp.comp.psn := congrArg (·.qp.comp.psn) henv
  have hmtu : c'.qp.mtu = c.qp.mtu := congrArg (·.qp.mtu) henv
  refine ⟨(congrArg (·.qp.type) henv).trans h.rc, (congrArg (·.qp.valid) henv).trans h.valid,
    (congrArg (·.qp.req.state) henv).trans h.ready,
    (congrArg (·.qp.comp.timeout) henv).trans h.timeout,
    (congrArg (·.qp.respPkts) henv).trans h.quiet, hmtu ▸ h.mtu, honly.free ▸ h.free,
    (congrArg (·.qp.ssn) henv).symm ▸ h.ssn, honly.ssn ▸ h.others,
    (honly.others 0 (Ne.symm hi)).trans h.head, hpsn.trans h.compPsn,
    ⟨h.wqe.ibwr, h.wqe.mask, h.wqe.length, h.wqe.ssn, hmtu ▸ h.wqe.resid, ?_⟩⟩
  rw [hpsn]
  exact Or.inr ⟨hstate, hindex, honly.live_length ▸ hle, (h.pending hstate).2.2⟩

theorem psnSub_self (a : ℕ) : psnSub a a = 0 := by
  rw [psnSub, psnMod]
  omega

theorem ReadInv.retry (h : ReadInv w₀ psn k c w) (hread : w₀.ibwr.opcode = .rdmaRead)
    (haddr : w₀.ibwr.remoteAddr < 2 ^ 64) (hstate : w.state = .pending) :
    ∃ w', w'.state = .posted ∧
      ReadInv w₀ psn k { reqRetry c with qp.req.needRetry := false } w' := by
  obtain ⟨rest, hlive⟩ := Ctx.live_of_head h.sqHead
  obtain ⟨s, r, hs, hr, hretry⟩ := reqRetry_cons hlive (by simp [hstate]) (by simp [hstate])
  -- `req_retry` moves the address on by the packets acknowledged, and nothing else
  have hw' : s.2 =
      { w with
        iova := (w.ibwr.remoteAddr + psnSub c.qp.comp.psn w.firstPsn * c.qp.mtu % 2 ^ 32) % 2 ^ 64
        state := .posted } := by
    rw [hs, retryWqe, h.wqe.ibwr, hread, h.rc, ← h.wqe.ibwr]
    rfl
  have hjob : r.2.map SendWqe.job = rest.map SendWqe.job := by
    rw [hr]
    exact retryLoop_job _ _ _ _ _ _
  refine ⟨s.2, by rw [hw'], ?_⟩
  rw [hretry]
  refine ⟨h.rc, h.valid, h.ready, h.timeout, h.quiet, h.mtu, h.free, h.ssn, ?_, rfl, h.compPsn, ?_⟩
  · show w₀.ssn ∉ r.2.map SendWqe.ssn
    have hothers := h.others
    rw [hlive, List.map_cons, List.tail_cons] at hothers
    rwa [map_ssn_of_job hjob]
  · rw [hw']
    refine ⟨h.wqe.ibwr, h.wqe.mask, h.wqe.length, h.wqe.ssn, h.wqe.resid,
      Or.inl ⟨rfl, rfl, rfl, rfl, fun hk => ?_⟩⟩
    -- as long as nothing has been received, `comp.psn` is the first PSN of the read
    show (w.ibwr.remoteAddr + psnSub c.qp.comp.psn w.firstPsn * c.qp.mtu % 2 ^ 32) % 2 ^ 64 = _
    rw [(h.pending hstate).2.2 hk, psnSub_self, h.wqe.ibwr, Nat.zero_mul, Nat.zero_mod,
      Nat.add_zero, Nat.mod_eq_of_lt haddr]

theorem ReadInv.of_view (h : ReadInv w₀ psn k c w) (hview : reqView c' = reqView c) :
    ReadInv w₀ psn k c' w := by
  have hretry : c'.qp.req.needRetry = c.qp.req.needRetry := congrArg (·.qp.req.needRetry) hview
  exact h.counted ⟨compView_of_reqView hview,
    (congrArg (·.qp.comp.timeout) hview).trans h.timeout, fun hn => Or.inl (hretry ▸ hn)⟩

theorem ReadInv.mark (h : ReadInv w₀ psn k c w) {f : SendWqe → SendWqe}
    (hf : ∃ mask hasRdAtomic, mask = wrOpcodeMask .rdmaRead .rc ∧
      f w = { w with mask, hasRdAtomic }) :
    ReadInv w₀ psn k (c.setWqe 0 f) (f w) := by
  obtain ⟨rest, hlive⟩ := Ctx.live_of_head h.sqHead
  have hsq : (c.setWqe 0 f).qp.sq = { c.qp.sq with live := f w :: rest } := by
    show c.qp.sq.modify 0 f = _
    rw [RingBuf.modify_of_lt f (by simp [hlive]), hlive]
    rfl
  have hothers := h.others
  rw [hlive, List.map_cons, List.tail_cons] at hothers
  have hphase := h.wqe.phase
  rw [hlive] at hphase
  obtain ⟨mask, hasRdAtomic, hmask, hfw⟩ := hf
  refine ⟨h.rc, h.valid, h.ready, h.timeout, h.quiet, h.mtu, by rw [hsq]; exact h.free, h.ssn,
    by rw [hsq]; exact hothers, by rw [hsq]; rfl, h.compPsn, ?_⟩
  rw [hfw]
  refine ⟨h.wqe.ibwr, hmask, h.wqe.length, h.wqe.ssn, h.wqe.resid, ?_⟩
  rw [hsq]
  exact hphase

theorem ReadInv.sent (h : ReadInv w₀ psn k c w) (hstate : w.state = .posted) {pkt : Pkt}
    (hop : pkt.opcode = .rcRdmaReadRequest) (ssn : ℕ) :
    ∃ w', ReadInv w₀ psn k ((updateState c pkt 0).emit (.sendReq pkt ssn)) w' := by
  obtain ⟨rest, hlive⟩ := Ctx.live_of_head h.sqHead
  obtain ⟨hindex, -, hreq, -⟩ := h.posted hstate
  obtain ⟨w', psn', next, hw', -, hnext, hview⟩ :=
    updateState_view (c := c) pkt 0 (by
      rw [hindex, RingBuf.get?_of_lt (by simp [hlive])]
      exact h.head)
  rw [hop, h.rc, hreq] at hw'
  rw [hop, hindex] at hnext
  have hw'' : w' = { w with
      firstPsn := c.qp.comp.psn
      lastPsn := psnMask (c.qp.comp.psn + packetsLeft c.qp.mtu w.dma.resid 0 - 1)
      state := .pending } := hw'
  have hfree : 0 < c.qp.sq.free.length := List.length_pos_of_ne_nil h.free
  -- a read is one packet: the requester moves on to the next WQE
  have hnext' : next = 1 := by
    have hslots : 1 < c.qp.sq.slots := by
      rw [RingBuf.slots, hlive, List.length_cons]
      omega
    rw [hnext]
    exact Nat.mod_eq_of_lt hslots
  have hothers := h.others
  rw [hlive, List.map_cons, List.tail_cons] at hothers
  rw [hindex, hnext', hop] at hview
  have hsq : (moveOn c 0 w' psn' .rcRdmaReadRequest 1).qp.sq =
      { c.qp.sq with live := w' :: rest } := by
    show c.qp.sq.modify 0 _ = _
    rw [RingBuf.modify_of_lt _ (by simp [hlive]), hlive]
    rfl
  have hmoved : ReadInv w₀ psn k (moveOn c 0 w' psn' .rcRdmaReadRequest 1) w' := by
    refine ⟨h.rc, h.valid, h.ready, h.timeout, h.quiet, h.mtu, by rw [hsq]; exact h.free, h.ssn,
      by rw [hsq]; exact hothers, by rw [hsq]; rfl, h.compPsn, ?_⟩
    rw [hw'']
    refine ⟨h.wqe.ibwr, h.wqe.mask, h.wqe.length, h.wqe.ssn, h.wqe.resid,
      Or.inr ⟨rfl, Nat.one_pos, ?_, fun _ => rfl⟩⟩
    rw [← hw'', hsq]
    show 1 ≤ (w' :: rest).length
    simp
  have hupd := hmoved.of_view hview
  generalize updateState c pkt 0 = c₁ at hupd
  exact ⟨w', hupd.rc, hupd.valid, hupd.ready, hupd.timeout, hupd.quiet, hupd.mtu, hupd.free,
    hupd.ssn, hupd.others, hupd.head, hupd.compPsn, hupd.wqe.ibwr, hupd.wqe.mask, hupd.wqe.length,
    hupd.wqe.ssn, hupd.wqe.resid, hupd.wqe.phase⟩

/-- What a call of the requester does to the read. -/
def ReadStepped (w₀ : SendWqe) (psn k : ℕ) (c c' : Ctx) : Prop :=
  (Dead c' ∨ ∃ w', ReadInv w₀ psn k c' w') ∧
    ∃ es, sends c'.out = sends c.out ++ es ∧ ∀ p ∈ es, p.2 = w₀.ssn → ReadReq w₀ psn k p.1

theorem ReadInv.stepped (h : ReadInv w₀ psn k c' w) (hs : sends c'.out = sends c.out) :
    ReadStepped w₀ psn k c c' :=
  ⟨Or.inr ⟨w, h⟩, [], by rw [hs, List.append_nil], fun p hp => absurd hp List.not_mem_nil⟩

theorem ReadInv.credited {opcode : Opcode} {v : SendWqe} (h : ReadInv w₀ psn k c w)
    (hstate : w.state = .posted) (hcredit : Credited c v opcode c') :
    ∃ w', w'.state = .posted ∧ ReadInv w₀ psn k c' w' ∧ sends c'.out = sends c.out := by
  cases hcredit with
  | free | held => exact ⟨w, hstate, h, rfl⟩
  | taken =>
    have hmark := h.mark (f := fun v => { v with hasRdAtomic := true })
      ⟨_, true, h.wqe.mask, rfl⟩
    rw [(h.posted hstate).1]
    exact ⟨{ w with hasRdAtomic := true }, hstate, hmark.of_view rfl, rfl⟩

theorem ReadInv.next_posted (h : ReadInv w₀ psn k c w) (hread : w₀.ibwr.opcode = .rdmaRead)
    (hstate : w.state = .posted) (hcall : reqNext c = some (b, c')) :
    ReadStepped w₀ psn k c c' := by
  obtain ⟨hindex, -, hreq, hiova⟩ := h.posted hstate
  -- the WQE that is chosen is the read, and the only packet for it is the request
  have hchosen : ∀ {v}, Chosen c v → w = v := by
    intro v hv
    have hlive := RingBuf.live_of_get? (by omega) hv.queued hv.next
    rw [hindex] at hlive
    exact Option.some_inj.1 (h.head.symm.trans hlive)
  have hop : nextOpcode c.qp.type c.qp.mtu c.qp.req.opcode w = some .rcRdmaReadRequest := by
    simp [nextOpcode, h.rc, h.wqe.ibwr, hread, nextOpcodeRc]
  have hmark : ReadInv w₀ psn k (c.masked w)
      { w with mask := wrOpcodeMask w.ibwr.opcode c.qp.type } := by
    unfold Ctx.masked
    rw [hindex]
    exact h.mark (f := fun v => { v with mask := wrOpcodeMask w.ibwr.opcode c.qp.type })
      ⟨_, _, by rw [h.wqe.ibwr, hread, h.rc], rfl⟩
  have hout := reqNext_outcome h.rc hcall
  rw [reqDrain_ready h.ready] at hout
  cases hout with
  | idle | fence => exact ReadInv.stepped (h.of_view rfl) rfl
  | window hv | full hv | depth hv =>
    cases hchosen hv
    exact ReadInv.stepped (hmark.of_view rfl) rfl
  | invalid hv hnone =>
    cases hchosen hv
    cases hnone.symm.trans hop
  | noSkb c₁ skb hv _ hcredit =>
    cases hchosen hv
    obtain ⟨w₁, -, hinv, hs⟩ := hmark.credited hstate hcredit
    exact ReadInv.stepped (hinv.of_view rfl) hs
  | failed hbuild _ hdata =>
    -- no data is loaded, so the packet cannot fail
    cases hchosen hbuild.chosen
    cases hop.symm.trans hbuild.op
    cases hdata
  | @sent v opcode c₁ pkt hbuild hpkt hreth =>
    cases hchosen hbuild.chosen
    cases hop.symm.trans hbuild.op
    -- a read request has no payload, so it does not exceed the MTU
    have hzero : reqPayload c w .rcRdmaReadRequest = 0 := by
      have hmtu : 0 < s32 (getMtu c) := by
        rw [getMtu, if_pos (Or.inl h.rc)]
        exact h.mtu
      have hdata : (if (rxeOpcodeMask .rcRdmaReadRequest).writeOrSend then s32 w.dma.resid
          else 0) = 0 := rfl
      rw [reqPayload, hdata, if_neg hmtu.not_gt]
    obtain ⟨c₂, skb, noack, out, hcredit, hload⟩ := hbuild.steps
    obtain ⟨w₁, hst₁, hinv, hs⟩ := hmark.credited hstate hcredit
    cases hload with
    | data hdata => cases hdata
    | none =>
      have hinv₂ : ReadInv w₀ psn k
          { c₂ with skb, qp.req.noackPkts := noack, qp.reqSkbOut := out } w₁ := hinv.of_view rfl
      obtain ⟨w', hinv'⟩ := hinv₂.sent hst₁ hpkt.1 w.ssn
      rw [hzero]
      refine ⟨Or.inr ⟨w', hinv'⟩, [(pkt, w.ssn)], ?_, fun p hp _ => ?_⟩
      · refine (updateState_sends pkt 0 w.ssn (w := w₁) ?_).trans (congrArg (· ++ _) hs)
        rw [(hinv₂.posted hst₁).1, RingBuf.get?_of_lt (List.getElem?_eq_some_iff.1 hinv₂.head).1]
        exact hinv₂.head
      · rw [List.mem_singleton.1 hp]
        refine ⟨hpkt.2.trans (hreq.trans h.compPsn), ?_, fun hk => ?_⟩
        · rw [hreth rfl]
          exact h.wqe.length
        · rw [hreth rfl]
          exact hiova hk

theorem ReadInv.next_pending (h : ReadInv w₀ psn k c w) (hstate : w.state = .pending)
    (hcall : reqNext c = some (b, c')) : ReadStepped w₀ psn k c c' := by
  obtain ⟨hpos, hle, -⟩ := h.pending hstate
  have hsent : ∀ {c₁ : Ctx}, OnlyWqe c.qp.req.wqeIndex c c₁ → ∃ es,
      sends c₁.out = sends c.out ++ es ∧ ∀ p ∈ es, p.2 = w₀.ssn → ReadReq w₀ psn k p.1 := by
    intro c₁ honly
    obtain ⟨es, hes, hssn⟩ := honly.sent
    refine ⟨es, hes, fun p hp heq => absurd ?_ h.others⟩
    -- what is sent is sent for a WQE behind the read
    have hget : (c.qp.sq.live.map SendWqe.ssn)[c.qp.req.wqeIndex]? = some w₀.ssn := by
      rw [List.getElem?_map, hssn p hp, heq]
    refine List.mem_of_getElem? (i := c.qp.req.wqeIndex - 1) ?_
    rw [List.getElem?_tail, Nat.sub_add_cancel hpos, hget]
  rcases reqNext_only h.rc h.ready hle hcall with ⟨honly, hindex⟩ | ⟨c₂, b', honly, hindex, hcomp⟩
  · refine ⟨Or.inr ⟨w, h.only hstate ?_ ?_ hpos.ne' honly⟩, hsent honly⟩
    all_goals
      have hfree : 0 < c.qp.sq.free.length := List.length_pos_of_ne_nil h.free
      rcases hindex with hindex | ⟨hlt, hindex⟩
      · omega
      · rw [hindex, Nat.mod_eq_of_lt (by rw [RingBuf.slots]; omega)]
        omega
  -- a WQE behind the read fails, and the completer is called for it
  · have h₂ := h.only hstate (by omega) (by omega) hpos.ne' honly
    obtain ⟨hend, hs⟩ := h₂.completer hcomp
    refine ⟨hend.imp_right fun h' => ⟨w, h'⟩, ?_⟩
    rw [hs]
    exact hsent honly

theorem ReadInv.requester (h : ReadInv w₀ psn k c w) (hread : w₀.ibwr.opcode = .rdmaRead)
    (haddr : w₀.ibwr.remoteAddr < 2 ^ 64) (hcall : rxeRequester c = some (b, c')) :
    ReadStepped w₀ psn k c c' := by
  unfold rxeRequester at hcall
  rw [if_neg (by simp [h.valid, h.ready]), if_neg (by simp [h.ready])] at hcall
  split at hcall
  · next hretry =>
    -- only a read that has been sent is retried
    have hstate : w.state = .pending := by
      rcases h.wqe.phase with ⟨-, -, hno, -⟩ | ⟨hst, -⟩
      · rw [hno] at hretry
        cases hretry
      · exact hst
    obtain ⟨w', hst', hinv⟩ := h.retry hread haddr hstate
    have hstep := hinv.next_posted hread hst' hcall
    have hout : (reqRetry c).out = c.out := by
      unfold reqRetry
      split <;> rfl
    refine ⟨hstep.1, ?_⟩
    rw [← hout]
    exact hstep.2
  · rcases h.state with hstate | hstate
    · exact h.next_posted hread hstate hcall
    · exact h.next_pending hstate hcall

/-- A response to the read at the head of the send queue that `check_psn` and `check_ack`
accept. -/
structure ReadArrives (c : Ctx) (w : SendWqe) (pkt : Pkt) : Prop where
  head : c.sqHead = some w
  pending : w.state = .pending
  read : w.ibwr.opcode = .rdmaRead
  psn : pkt.psn = c.qp.comp.psn
  last : psnCompare pkt.psn w.lastPsn ≤ 0
  opcode : (pkt.opcode = .rcRdmaReadResponseFirst ∨ pkt.opcode = .rcRdmaReadResponseLast ∨
    pkt.opcode = .rcRdmaReadResponseOnly) ∧ pkt.aethType = aethAck ∨
    pkt.opcode = .rcRdmaReadResponseMiddle
  seq : ackSeqOk c.qp.comp.opcode pkt

theorem run_doRead {pkt : Pkt} {c₁ : Ctx} (h : ReadArrives c₁ w pkt) (n : ℕ) :
    Loop.run compStep (n + 4) ⟨.getWqe, some pkt, c₁⟩ = Loop.run compStep n
      ⟨(doRead (resetRetryCounters c₁) pkt w).1, some pkt,
        (doRead (resetRetryCounters c₁) pkt w).2⟩ := by
  have hwqe : getWqe c₁ (some pkt) = .checkPsn := by
    unfold getWqe
    rw [h.head]
    simp [h.pending]
  have hpsn : compCheckPsn c₁ pkt w = (.checkAck, c₁) := by
    have hlast := h.last
    have hdiff : psnCompare pkt.psn c₁.qp.comp.psn = 0 := by
      rw [h.psn]
      exact psnCompare_self _
    unfold compCheckPsn
    rw [if_neg (by omega), hdiff, if_neg (by omega), if_neg (by omega)]
  have hack : checkAck c₁ pkt w = (.read, resetRetryCounters c₁) := by
    have hseq := h.seq
    unfold checkAck
    rcases h.opcode with ⟨hop | hop | hop, haeth⟩ | hop
    · simp [hseq, hop, haeth, h.read]
    · simp [hseq, hop, haeth, h.read]
    · simp [hseq, hop, haeth, h.read]
    · simp [hseq, hop, h.read]
  have hhead₂ : (resetRetryCounters c₁).sqHead = some w := h.head
  have h₁ := step_getWqe c₁ (some pkt)
  have h₂ := step_checkPsn pkt h.head
  have h₃ := step_checkAck pkt h.head
  rw [hwqe] at h₁
  rw [hpsn] at h₂
  rw [hack] at h₃
  rw [Loop.run_succ_inl h₁, Loop.run_succ_inl h₂, Loop.run_succ_inl h₃,
    Loop.run_succ_inl (step_read pkt hhead₂)]

theorem run_response {pkt : Pkt} {c₁ : Ctx} (hnext : NextResponse c₁ w pkt)
    (hread : w.ibwr.opcode = .rdmaRead) (n : ℕ) :
    ∃ dma dev, copyDataIn c₁.dev c₁.qp.pd (some .localWrite) w.dma pkt.payload =
      (dma, dev, .ok ()) ∧
      Loop.run compStep (n + 6) ⟨.getWqe, some pkt, c₁⟩ = some (true, updateComp
        (({ resetRetryCounters c₁ with dev }.setWqe 0 fun v => { v with dma }).emit
          (.copied pkt w.ssn)) pkt) := by
  obtain ⟨dma, dev, hcopy⟩ : ∃ dma dev,
      copyDataIn c₁.dev c₁.qp.pd (some .localWrite) w.dma pkt.payload = (dma, dev, .ok ()) :=
    ⟨_, _, Prod.ext rfl (Prod.ext rfl hnext.copied)⟩
  have harrives : ReadArrives c₁ w pkt :=
    ⟨hnext.head, hnext.pending, hread, hnext.psn, hnext.last,
      hnext.opcode.imp_left fun hfirst => ⟨Or.inl hfirst.1, hfirst.2⟩, hnext.seq⟩
  -- a FIRST or MIDDLE response does not end the read
  have hend : pkt.mask.end_ = false := by
    rcases hnext.opcode with ⟨hop, -⟩ | hop <;> simp [Pkt.mask, hop, rxeOpcodeMask]
  have hdo : doRead (resetRetryCounters c₁) pkt w = (.updateComp,
      ({ resetRetryCounters c₁ with dev }.setWqe 0 fun v => { v with dma }).emit
        (.copied pkt w.ssn)) := by
    unfold doRead copyResponse
    rw [show copyDataIn (resetRetryCounters c₁).dev (resetRetryCounters c₁).qp.pd
      (some .localWrite) w.dma pkt.payload = (dma, dev, .ok ()) from hcopy]
    dsimp only
    rw [if_neg (by simp [hend])]
  refine ⟨dma, dev, hcopy, ?_⟩
  rw [run_doRead harrives, hdo, Loop.run_succ_inl (step_updateComp _ pkt),
    Loop.run_succ_inr (step_compDone _ _)]

theorem ReadInv.copied {pkt : Pkt} {dma : DmaInfo} (h : ReadInv w₀ psn k c w)
    (hstate : w.state = .pending) (hpkt : pkt.psn = c.qp.comp.psn)
    (hresid : dma.resid + c.qp.mtu = w.dma.resid) (hlength : dma.length = w.dma.length)
    (dev : Dev) (e : Event) :
    ReadInv w₀ psn (k + 1)
      (updateComp (({ c with dev }.setWqe 0 fun v => { v with dma }).emit e) pkt)
      { w with dma } := by
  obtain ⟨rest, hlive⟩ := Ctx.live_of_head h.sqHead
  set c₁ := ({ c with dev }.setWqe 0 fun v => { v with dma }).emit e with hc₁
  have hsq : c₁.qp.sq = { c.qp.sq with live := { w with dma } :: rest } := by
    show c.qp.sq.modify 0 _ = _
    rw [RingBuf.modify_of_lt _ (by simp [hlive]), hlive]
    rfl
  have hview := updateComp_view c₁ pkt
  -- the response is the expected one, so `comp.psn` moves on by one
  rw [advanceCompPsn, if_pos (by
    rw [hpkt]
    exact (psnCompare_self _).ge)] at hview
  refine ReadInv.of_view ?_ hview
  have hothers := h.others
  rw [hlive, List.map_cons, List.tail_cons] at hothers
  obtain ⟨hpos, hle, -⟩ := h.pending hstate
  refine ⟨h.rc, h.valid, h.ready, h.timeout, h.quiet, h.mtu, ?_, h.ssn, ?_, ?_, ?_, ?_⟩
  · show c₁.qp.sq.free ≠ []
    rw [hsq]
    exact h.free
  · show w₀.ssn ∉ (c₁.qp.sq.live.map SendWqe.ssn).tail
    rw [hsq]
    exact hothers
  · show c₁.qp.sq.live[0]? = some _
    rw [hsq]
    rfl
  · show psnMask (pkt.psn + 1) = _
    rw [hpkt, h.compPsn, psnMask_add]
    rfl
  · have hold := h.wqe.resid
    refine ⟨h.wqe.ibwr, h.wqe.mask, hlength.trans h.wqe.length, h.wqe.ssn, ?_,
      Or.inr ⟨hstate, hpos, ?_, ?_⟩⟩
    · show dma.resid + (k + 1) * c.qp.mtu = _
      rw [← hold, ← hresid, Nat.succ_mul]
      omega
    · show c.qp.req.wqeIndex ≤ c₁.qp.sq.live.length
      rw [hsq]
      rw [hlive] at hle
      exact hle
    · intro hk
      omega

theorem ReadInv.queued (h : ReadInv w₀ psn k c w) (pkt : Pkt) :
    ReadInv w₀ psn k (takeResponse (rxeCompQueuePkt c pkt) []) w := by
  refine h.counted ⟨?_, rfl, fun hn => Or.inl hn⟩
  have hemit : compView (takeResponse (rxeCompQueuePkt c pkt) []) =
      compView (takeResponse c []) := compView_emit (takeResponse c []) (e := .runComp) rfl
  rw [hemit]
  exact congrArg (fun q => { compView c with qp.respPkts := q }) h.quiet.symm

theorem ReadInv.run_queued (h : ReadInv w₀ psn k c w) (hno : c.qp.req.needRetry = false)
    (pkt : Pkt) : rxeCompleter (rxeCompQueuePkt c pkt) =
      Loop.run compStep (3 * c.qp.sq.live.length + 7)
        ⟨.getWqe, some pkt, takeResponse (rxeCompQueuePkt c pkt) []⟩ := by
  refine rxeCompleter_pkt (c := rxeCompQueuePkt c pkt) h.valid h.ready hno ?_
  show c.qp.respPkts ++ [pkt] = _
  rw [h.quiet]
  rfl

theorem ReadInv.response {pkt : Pkt} {v : SendWqe} (h : ReadInv w₀ psn k c w)
    (hread : w₀.ibwr.opcode = .rdmaRead) (hnext : NextResponse c v pkt)
    (hcall : rxeCompleter (rxeCompQueuePkt c pkt) = some (b, c')) :
    ∃ w', ReadInv w₀ psn (k + 1) c' w' := by
  obtain rfl : w = v := Option.some_inj.1 (h.sqHead.symm.trans hnext.head)
  have hinv₁ := h.queued pkt
  set c₁ := takeResponse (rxeCompQueuePkt c pkt) [] with hc₁
  have hnext₁ : NextResponse c₁ w pkt :=
    ⟨hnext.head, hnext.pending, hnext.noRetry, hnext.psn, hnext.last, hnext.opcode, hnext.seq,
      hnext.size, hnext.copied⟩
  obtain ⟨dma, dev, hcopy, hrun⟩ := run_response hnext₁ (h.wqe.ibwr ▸ hread)
    (3 * c.qp.sq.live.length + 1)
  have hc' : c' = updateComp (({ resetRetryCounters c₁ with dev }.setWqe 0 fun v =>
      { v with dma }).emit (.copied pkt w.ssn)) pkt := by
    rw [h.run_queued hnext.noRetry pkt] at hcall
    have heq := hcall.symm.trans hrun
    cases heq
    rfl
  -- a full packet has been copied, and `resid` is less by the MTU
  obtain ⟨hresid, hlength⟩ : dma.resid + c.qp.mtu = w.dma.resid ∧ dma.length = w.dma.length := by
    unfold copyDataIn at hcopy
    split at hcopy
    next hwith =>
      cases hcopy
      have hok := copyDataWith_ok hwith
      rwa [hnext.size] at hok
  have hinv₂ : ReadInv w₀ psn k (resetRetryCounters c₁) w :=
    hinv₁.counted ⟨rfl, rfl, fun hn => Or.inl hn⟩
  rw [hc']
  exact ⟨_, hinv₂.copied hnext.pending hnext.psn hresid hlength dev _⟩

theorem ReadInv.early {pkt : Pkt} {v : SendWqe} (h : ReadInv w₀ psn k c w)
    (hearly : EarlyResponse c v pkt)
    (hcall : rxeCompleter (rxeCompQueuePkt c pkt) = some (b, c')) :
    Dead c' ∨ ReadInv w₀ psn k c' w := by
  obtain rfl : w = v := Option.some_inj.1 (h.sqHead.symm.trans hearly.head)
  have hinv₁ := h.queued pkt
  rw [h.run_queued hearly.noRetry pkt] at hcall
  set c₁ := takeResponse (rxeCompQueuePkt c pkt) [] with hc₁
  have hhead : c₁.sqHead = some w := hinv₁.sqHead
  have hwqe := step_getWqe c₁ (some pkt)
  rcases h.state with hstate | hstate
  -- nothing has been sent: `get_wqe` drops the packet
  · have hdone : getWqe c₁ (some pkt) = .done := by
      unfold getWqe
      rw [hhead]
      simp [hstate]
    rw [hdone] at hwqe
    rw [Loop.run_succ_inl hwqe, Loop.run_succ_inr (step_compDone _ _)] at hcall
    rw [← (Prod.mk.inj (Option.some_inj.1 hcall)).2]
    exact Or.inr hinv₁
  -- `check_psn` finds a packet missing before a read and asks for a retry
  · have hcheck : getWqe c₁ (some pkt) = .checkPsn := by
      unfold getWqe
      rw [hhead]
      simp [hstate]
    have hmask : w.mask.atomicOrRead = true := by
      rw [h.wqe.mask]
      rfl
    have hretry : compCheckPsn c₁ pkt w = (.errorRetry, c₁) := by
      unfold compCheckPsn
      by_cases hlast : 0 < psnCompare pkt.psn w.lastPsn
      · rw [if_pos hlast, if_pos hstate, if_pos hmask]
      · have hdiff : 0 < psnCompare pkt.psn c₁.qp.comp.psn :=
          (hearly.ahead hstate).resolve_left hlast
        rw [if_neg hlast]
        rw [if_neg (by omega), if_pos ⟨hdiff, hmask⟩]
    have hpsn := step_checkPsn pkt hhead
    rw [hcheck] at hwqe
    rw [hretry] at hpsn
    rw [Loop.run_succ_inl hwqe, Loop.run_succ_inl hpsn] at hcall
    exact (run_errorRetry c₁ hinv₁.rc hinv₁.valid hhead (by simp [hstate])
      ⟨rfl, rfl, Or.inl⟩ hcall).imp_right hinv₁.counted

theorem ReadInv.push (h : ReadInv w₀ psn k c w) (hroom : c.qp.sq.full = false) (wr : SendWr)
    (mask : WrMask) (length : ℕ) :
    ReadInv w₀ psn k { c with
      qp.sq := c.qp.sq.push (initSendWqe c.qp.type c.dev wr mask length (c.qp.ssn + 1))
      qp.ssn := c.qp.ssn + 1 } w := by
  obtain ⟨rest, hlive⟩ := Ctx.live_of_head h.sqHead
  obtain ⟨slot, free, hfree, hne⟩ := RingBuf.free_of_room hroom
  set f := initSendWqe c.qp.type c.dev wr mask length (c.qp.ssn + 1) with hf
  have hsq : c.qp.sq.push f = ⟨w :: (rest ++ [f slot]), free⟩ := by
    rw [RingBuf.push_live f hfree, hlive]
    rfl
  have hssn := h.ssn
  have hothers := h.others
  have hphase := h.wqe.phase
  rw [hlive] at hothers hphase
  refine ⟨h.rc, h.valid, h.ready, h.timeout, h.quiet, h.mtu, ?_, Nat.le_succ_of_le hssn, ?_, ?_,
    h.compPsn, h.wqe.ibwr, h.wqe.mask, h.wqe.length, h.wqe.ssn, h.wqe.resid, ?_⟩
  · show (c.qp.sq.push f).free ≠ []
    rw [hsq]
    exact hne
  · show w₀.ssn ∉ ((c.qp.sq.push f).live.map SendWqe.ssn).tail
    rw [hsq]
    intro hmem
    rw [List.map_cons, List.tail_cons, List.map_append, List.mem_append] at hmem
    rcases hmem with hold | hnew
    · exact hothers hold
    -- the new WQE has a number above that of the read
    · have hslot : w₀.ssn = c.qp.ssn + 1 := List.mem_singleton.1 hnew
      omega
  · show (c.qp.sq.push f).live[0]? = some w
    rw [hsq]
    rfl
  · show _ ∨ w.state = .pending ∧ 0 < c.qp.req.wqeIndex ∧
      c.qp.req.wqeIndex ≤ (c.qp.sq.push f).live.length ∧ _
    rw [hsq]
    refine hphase.imp_right fun h => ⟨h.1, h.2.1, ?_, h.2.2.2⟩
    have hle := h.2.2.1
    simp only [List.length_cons, List.length_append] at hle ⊢
    omega

theorem ReadInv.post (h : ReadInv w₀ psn k c w) (wrs : List SendWr) :
    ReadInv w₀ psn k (rxePostSend c wrs).2 w :=
  rxePostSend_inv (P := fun c => ReadInv w₀ psn k c w) (fun _ _ hroom h => h.push hroom _ _ _)
    (fun _ h => h.of_view (reqView_emit _ rfl)) h wrs

end Inv

/-! ### Whole runs -/

theorem ReadStart.inv {c₀ : Ctx} {w₀ : SendWqe} (h : ReadStart c₀ w₀) :
    ReadInv w₀ c₀.qp.comp.psn 0 c₀ w₀ where
  rc := h.rc
  valid := h.valid
  ready := h.ready
  timeout := h.timeout
  quiet := h.quiet
  mtu := h.mtu
  free := h.free
  ssn := h.ssn
  others := h.others
  head := List.head?_eq_getElem?.symm.trans h.head
  compPsn := (psnMask_of_lt h.psn_lt).symm
  wqe := by
    refine ⟨rfl, h.mask, rfl, rfl, by rw [h.resid, Nat.zero_mul, Nat.add_zero], ?_⟩
    exact h.sent.imp (fun ⟨hst, hi, hno, hreq, hiova⟩ => ⟨hst, hi, hno, hreq, fun _ => hiova⟩)
      fun ⟨hst, hpos, hle, hfirst⟩ => ⟨hst, hpos, hle, fun _ => hfirst⟩

/-- In every state of a run the QP is in error, or `k` responses of the read have been
received and the invariant holds for them. -/
theorem readRun_inv {c₀ c : Ctx} {w₀ : SendWqe} (h : ReadStart c₀ w₀) (hrun : ReadRun c₀ c) :
    Dead c ∨ ∃ k w, ReadInv w₀ c₀.qp.comp.psn k c w := by
  -- `k` counts the responses; a QP in error stays there, whatever is called
  induction hrun with
  | start => exact Or.inr ⟨0, w₀, h.inv⟩
  | requester hrun hcall ih =>
    rcases ih with hdead | ⟨k, w, hinv⟩
    · rw [hdead.requester hcall]
      exact Or.inl hdead
    · exact (hinv.requester h.read h.addr hcall).1.imp_right fun ⟨w', h'⟩ => ⟨k, w', h'⟩
  | @post c c' ok wrs hrun hcall ih =>
    rcases ih with hdead | ⟨k, w, hinv⟩
    · rw [rxePostSend, if_pos (Or.inr (Or.inl hdead.2.2))] at hcall
      cases hcall
      exact Or.inl hdead
    · have hpost := hinv.post wrs
      rw [hcall] at hpost
      exact Or.inr ⟨k, w, hpost⟩
  | @timeout c c' b hrun hcall ih =>
    rcases ih with hdead | ⟨k, w, hinv⟩
    · refine Or.inl (Dead.completer (c := retransmitTimer c) ?_ hcall)
      rw [retransmitTimer, if_pos hdead.2.1]
      exact hdead
    · have htimer : retransmitTimer c = { c with qp.comp.timeout := true }.emit .runComp := by
        rw [retransmitTimer, if_pos hinv.valid]
      rw [htimer] at hcall
      rcases rxeCompleter_noPkt (c := { c with qp.comp.timeout := true }.emit .runComp)
        hinv.rc hinv.valid hinv.ready hinv.quiet hinv.sqHead hinv.state hcall with
        hdead | ⟨hview, htimeout, hretry⟩
      · exact Or.inl hdead
      · rw [compView_emit _ rfl] at hview
        exact Or.inr ⟨k, w, hinv.counted ⟨hview, htimeout, hretry⟩⟩
  | @response c c' b v pkt hrun hnext hcall ih =>
    rcases ih with hdead | ⟨k, w, hinv⟩
    · exact Or.inl (Dead.completer (c := rxeCompQueuePkt c pkt) hdead hcall)
    · obtain ⟨w', h'⟩ := hinv.response h.read hnext hcall
      exact Or.inr ⟨k + 1, w', h'⟩
  | @early c c' b v pkt hrun hearly hcall ih =>
    rcases ih with hdead | ⟨k, w, hinv⟩
    · exact Or.inl (Dead.completer (c := rxeCompQueuePkt c pkt) hdead hcall)
    · exact (hinv.early hearly hcall).imp_right fun h' => ⟨k, w, h'⟩

/-- Every request sent for the read has the PSN of the first missing response.  Its address
and length are those of the missing part exactly when nothing has been received. -/
theorem read_request_iff (c₀ c c' : Ctx) (w₀ w : SendWqe) (b : Bool) (es : List (Pkt × ℕ))
    (pkt : Pkt) (received : ℕ) (hstart : ReadStart c₀ w₀) (hrun : ReadRun c₀ c)
    (hw : c.sqHead = some w) (hreceived : received = w₀.dma.length - w.dma.resid)
    (hcall : rxeRequester c = some (b, c')) (hsends : sends c'.out = sends c.out ++ es)
    (hpkt : (pkt, w₀.ssn) ∈ es) :
    pkt.psn = psnMask (c₀.qp.comp.psn + received / c.qp.mtu) ∧
      ((pkt.reth.va = (w₀.ibwr.remoteAddr + received) % 2 ^ 64 ∧
        pkt.reth.len = w₀.dma.length - received) ↔ received = 0) := by
  rcases readRun_inv hstart hrun with hdead | ⟨k, v, hinv⟩
  · rw [hdead.requester hcall] at hsends
    rw [List.append_right_eq_self.1 hsends.symm] at hpkt
    cases hpkt
  · obtain rfl : v = w := Option.some_inj.1 (hinv.sqHead.symm.trans hw)
    obtain ⟨-, es', hes', hreq⟩ := hinv.requester hstart.read hstart.addr hcall
    obtain rfl : es = es' := List.append_cancel_left (hsends.symm.trans hes')
    have hpkt := hreq _ hpkt rfl
    have hresid := hinv.wqe.resid
    -- each of the `k` responses was a full packet
    have hmul : received = k * c.qp.mtu := by omega
    have hmtu : 0 < c.qp.mtu := by
      have hpos := hinv.mtu
      have hle := s32_le c.qp.mtu
      omega
    refine ⟨?_, ?_⟩
    · rw [hpkt.psn, hmul, Nat.mul_div_cancel k hmtu]
    · rw [hpkt.len]
      constructor
      · rintro ⟨-, hlen⟩
        omega
      · intro hzero
        have hk : k = 0 := by
          rw [hmul] at hzero
          exact (Nat.mul_eq_zero.1 hzero).resolve_right hmtu.ne'
        rw [hpkt.va hk, hzero, Nat.add_zero, Nat.mod_eq_of_lt hstart.addr]
        exact ⟨rfl, rfl⟩

/-- A read of three packets of 256 bytes from address `0x1000`. -/
def readWqe : SendWqe :=
  { ibwr := { opcode := .rdmaRead, remoteAddr := 0x1000, rkey := 1 }
    mask := wrOpcodeMask .rdmaRead .rc
    iova := 0x1000
    dma := { length := 768, resid := 768, sge := [⟨8, 768, 0x100⟩] } }

/-- A QP with that read in its send queue. -/
def readQp : Ctx :=
  { qp :=
      { type := .rc
        attr := { retryCnt := 7 }
        sq := { live := [readWqe], free := [{ ibwr := { opcode := .send } }] }
        rq := ⟨[], []⟩
        comp := { retryCnt := 7 }
        req := { state := .ready, rdAtomic := 1 } }
    dev :=
      { mem := fun i =>
          if i = 1 then
            some { pd := 0, lkey := 0x100, rkey := 0x100, state := .valid, type := .dma, iova := 0,
                   length := 0, offset := 0, access := [.localWrite], pageShift := 0, pageMask := 0,
                   mapShift := 0, mapMask := 0, map := [] }
          else none } }

theorem readQp_start : ReadStart readQp readWqe :=
  { rc := rfl, valid := rfl, ready := rfl, head := rfl, read := rfl, mask := rfl,
    addr := by decide, resid := rfl, sent := Or.inl ⟨rfl, rfl, rfl, rfl, rfl⟩,
    psn_lt := by decide, timeout := rfl, quiet := rfl, mtu := by decide,
    free := List.cons_ne_nil _ _, ssn := le_rfl, others := List.not_mem_nil }

/-- The first response does not come, and the timer fires: the request that is sent again is for
the whole read, as the first was. -/
theorem read_request_again :
    ∃ c₁ c₂ c₃ pkt, rxeRequester readQp = some (true, c₁) ∧
      rxeCompleter (retransmitTimer c₁) = some (false, c₂) ∧ rxeRequester c₂ = some (true, c₃) ∧
      sends c₃.out = sends c₂.out ++ [(pkt, 0)] ∧ pkt.psn = 0 ∧ pkt.reth.va = 0x1000 ∧
      pkt.reth.len = 768 := by
  obtain ⟨c₁, h₁⟩ : ∃ c₁, rxeRequester readQp = some (true, c₁) := ⟨_, rfl⟩
  obtain ⟨c₂, w, h₂, hw, hresid⟩ : ∃ c₂ w, rxeCompleter (retransmitTimer c₁) = some (false, c₂) ∧
      c₂.sqHead = some w ∧ w.dma.resid = 768 := by
    cases h₁
    exact ⟨_, _, rfl, rfl, rfl⟩
  obtain ⟨c₃, pkt, h₃, hsends⟩ : ∃ c₃ pkt, rxeRequester c₂ = some (true, c₃) ∧
      sends c₃.out = sends c₂.out ++ [(pkt, 0)] := by
    cases h₁
    cases h₂
    exact ⟨_, _, rfl, rfl⟩
  have hrun : ReadRun readQp c₂ := .timeout (.requester .start h₁) h₂
  obtain ⟨hpsn, hiff⟩ := read_request_iff readQp c₂ c₃ readWqe w true _ pkt 0 readQp_start hrun hw
    (by rw [hresid]; rfl) h₃ hsends (List.mem_singleton.2 rfl)
  rw [Nat.zero_div] at hpsn
  obtain ⟨hva, hlen⟩ := hiff.2 rfl
  exact ⟨c₁, c₂, c₃, pkt, h₁, h₂, h₃, hsends, hpsn, hva, hlen⟩

/-- A response of 256 bytes. -/
def readResponse (opcode : Opcode) (psn : ℕ) : Pkt :=
  { opcode, psn, payload := List.replicate 256 0 }

set_option maxRecDepth 8192 in
/-- After the first response the retried request is for 768 bytes from `0x1100` where 512
are missing; after the second it asks for 768 bytes from `0x1100` again, where 256 bytes
from `0x1200` are missing. -/
theorem read_request_overlaps :
    ∃ c₁ c₂ c₃ c₄ c₅ c₆ c₇, rxeRequester readQp = some (true, c₁) ∧
      rxeCompleter (rxeCompQueuePkt c₁ (readResponse .rcRdmaReadResponseFirst 0)) =
        some (true, c₂) ∧
      rxeCompleter (retransmitTimer c₂) = some (false, c₃) ∧ rxeRequester c₃ = some (true, c₄) ∧
      rxeCompleter (rxeCompQueuePkt c₄ (readResponse .rcRdmaReadResponseMiddle 1)) =
        some (true, c₅) ∧
      rxeCompleter (retransmitTimer c₅) = some (false, c₆) ∧ rxeRequester c₆ = some (true, c₇) ∧
      (sends c₇.out).map (fun p => (p.1.psn, p.1.reth.va, p.1.reth.len)) =
        [(0, 0x1000, 768), (1, 0x1100, 768), (2, 0x1100, 768)] :=
  ⟨_, _, _, _, _, _, _, rfl, rfl, rfl, rfl, rfl, rfl, rfl, rfl⟩

end Rxe
