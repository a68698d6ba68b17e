/-
What the states of the responder leave alone.

Most states of `rxe_responder` only prepare or move data: they change the receive
queue, the target of the request, the memory, the outcomes of allocations, and the
events that are neither an execution nor a response.  `respView` forgets all of that,
and a lemma for each such function says that it keeps the view.  Invariants of the
sequence numbers, of the resources and of the responses are stated on the view.
-/
import Rxe.Qp

namespace Rxe

variable {c c' : Ctx} {e : Event} {s : RespCfg}

/-- The events that record an execution or a response. -/
def Event.isResp : Event → Bool
  | .exec _ _ | .sendResp _ => true
  | _ => false

/-- The context without the data path of the responder. -/
def respView (c : Ctx) : Ctx :=
  { c with
    dev := {}
    skb := []
    cq := []
    out := c.out.filter Event.isResp
    qp.rq := ⟨[], []⟩
    qp.srq := none
    qp.resp.dropMsg := false
    qp.resp.status := .success
    qp.resp.wqe := none
    qp.resp.va := 0
    qp.resp.mr := none
    qp.resp.resid := 0
    qp.resp.rkey := 0
    qp.resp.atomicOrig := 0
    qp.resp.srqWqe := {} }

theorem respView_out (c : Ctx) : (respView c).out = c.out.filter Event.isResp := rfl

theorem respView_emit (c : Ctx) (he : e.isResp = false) :
    respView (c.emit e) = respView c := by
  simp [respView, Ctx.emit, he]

theorem respView_emit_resp (c : Ctx) (he : e.isResp = true) :
    respView (c.emit e) = (respView c).emit e := by
  simp [respView, Ctx.emit, he]

/-! Facts of the opcode table. -/

theorem Pkt.mask_of_read {p : Pkt} (h : p.mask.read) : p.mask.reth ∧ p.mask.send = false ∧
    p.mask.write = false ∧ p.mask.atomic = false := by
  obtain ⟨o⟩ := p
  cases o <;> first | exact ⟨rfl, rfl, rfl, rfl⟩ | cases h

theorem Pkt.mask_of_write {p : Pkt} (h : p.mask.write) : p.mask.send = false ∧
    p.mask.atomic = false := by
  obtain ⟨o⟩ := p
  cases o <;> first | exact ⟨rfl, rfl⟩ | cases h

theorem takeSkb_view (c : Ctx) : respView c.takeSkb.2 = respView c := by
  unfold Ctx.takeSkb
  split <;> rfl

theorem takeSkb_view_of {ok : Bool} (h : c.takeSkb = (ok, c')) :
    respView c' = respView c := by
  rw [← takeSkb_view c, h]

theorem checkOpSeq_cases (c : Ctx) (p : Pkt) : checkOpSeq c p = (.chkOpValid, c) ∨
    c.qp.type = .rc ∧ checkOpSeq c p = (.errMissingOpcodeFirst, c) ∨
    c.qp.type = .rc ∧ checkOpSeq c p = (.errMissingOpcodeLastC, c) ∨
    c.qp.type = .uc ∧ checkOpSeq c p = (.errMissingOpcodeLastD1e, c) ∨
    c.qp.type = .uc ∧ checkOpSeq c p = (.cleanup, { c with qp.resp.dropMsg := true }) := by
  unfold checkOpSeq
  split
  · next hrc => split <;> split <;> simp [hrc]
  · next huc =>
    split
    iterate 4 split <;> simp [huc]
    split <;> simp [huc]
  · simp

theorem checkOpSeq_view (c : Ctx) (pkt : Pkt) : respView (checkOpSeq c pkt).2 = respView c := by
  rcases checkOpSeq_cases c pkt with h | ⟨-, h⟩ | ⟨-, h⟩ | ⟨-, h⟩ | ⟨-, h⟩ <;>
    exact congrArg (fun r => respView r.2) h

theorem checkOpValid_cases (c : Ctx) (p : Pkt) : checkOpValid c p = (.chkResource, c) ∨
    c.qp.type = .rc ∧ checkOpValid c p = (.errUnsupportedOpcode, c) ∨
    c.qp.type = .uc ∧ checkOpValid c p = (.cleanup, { c with qp.resp.dropMsg := true }) := by
  unfold checkOpValid
  split
  · next hrc => split <;> simp [hrc]
  · next huc => split <;> simp [huc]
  · simp

theorem checkOpValid_view (c : Ctx) (pkt : Pkt) :
    respView (checkOpValid c pkt).2 = respView c := by
  rcases checkOpValid_cases c pkt with h | ⟨-, h⟩ | ⟨-, h⟩ <;>
    exact congrArg (fun r => respView r.2) h

theorem getSrqWqe_view (c : Ctx) (srq : Srq) : respView (getSrqWqe c srq).2 = respView c := by
  unfold getSrqWqe
  split
  · rfl
  · split
    · rfl
    · dsimp only
      split
      · exact respView_emit _ rfl
      · rfl

theorem getSrqWqe_state (c : Ctx) (srq : Srq) :
    (getSrqWqe c srq).1 = .errRnr ∨ (getSrqWqe c srq).1 = .chkLength := by
  unfold getSrqWqe
  split
  · exact Or.inl rfl
  · split
    · exact Or.inl rfl
    · dsimp only
      split <;> exact Or.inr rfl

theorem takeFlushWqe_view (c : Ctx) : respView (takeFlushWqe c) = respView c := by
  unfold takeFlushWqe
  split <;> rfl

theorem checkResource_view (c : Ctx) (pkt : Option Pkt) :
    respView (checkResource c pkt).2 = respView c := by
  unfold checkResource
  split
  · dsimp only
    split <;> exact takeFlushWqe_view c
  · split
    · rfl
    · split
      · rfl
      · split
        · split
          · exact getSrqWqe_view c _
          · rfl
        · rfl

theorem executeDone_next (c : Ctx) (p : Pkt) :
    (p.mask.comp ∧ (executeDone c p).1 = .complete) ∨ p.mask.comp = false ∧
      ((executeDone c p).1 = .acknowledge ∨ (executeDone c p).1 = .cleanup) := by
  unfold executeDone
  dsimp only
  split
  · next hcomp => exact Or.inl ⟨hcomp, rfl⟩
  · next hcomp =>
    refine Or.inr ⟨by simpa using hcomp, ?_⟩
    split
    · exact Or.inl rfl
    · exact Or.inr rfl

theorem respAfterCqe_cases (c : Ctx) (pkt : Option Pkt) :
    c.qp.resp.state = .error ∧ respAfterCqe c pkt = .chkResource ∨ respAfterCqe c pkt = .done ∨
      respAfterCqe c pkt = .acknowledge ∨ respAfterCqe c pkt = .cleanup := by
  unfold respAfterCqe
  split
  · next herr => exact Or.inl ⟨herr, rfl⟩
  · split
    · simp
    · split <;> simp

theorem executeData_err {p : Pkt} {err : RespState} (h : (executeData c p).1 = some err) :
    err = .errMalformedWqe ∨ err = .errLength ∨ err = .errRkeyViolation ∨
      err = .errMisalignedAtomic := by
  have hsend : ∀ (c : Ctx) (data : List UInt8), (sendDataIn c data).1 = some err →
      err = .errMalformedWqe ∨ err = .errLength ∨ err = .errRkeyViolation ∨
        err = .errMisalignedAtomic := by
    intro c data hs
    unfold sendDataIn at hs
    split at hs
    · cases hs
      simp
    · dsimp only at hs
      split at hs <;> cases hs <;> simp
  unfold executeData at h
  split at h
  · split at h
    · split at h
      · next hs => exact hsend c p.grh (by rw [hs]; exact h)
      · exact hsend _ _ h
    · exact hsend _ _ h
  · split at h
    · unfold writeDataIn at h
      split at h
      · cases h
        simp
      · split at h <;> cases h
        simp
    · split at h
      · unfold processAtomic at h
        split at h
        · cases h
          simp
        · split at h
          · cases h
            simp
          · split at h
            · cases h
              simp
            · split at h <;> cases h
              simp
      · cases h

/-- Where `check_resource` goes with a request; a read gets no further without resources. -/
theorem checkResource_next (pkt : Option Pkt) (hstate : c.qp.resp.state ≠ .error) :
    (checkResource c pkt).1 = .exit ∨ (checkResource c pkt).1 = .errRnr ∨
      (checkResource c pkt).1 = .errTooManyRdmaAtmReq ∨ ((checkResource c pkt).1 = .chkLength ∧
        ∀ p ∈ pkt, p.mask.read → 0 < c.qp.attr.maxRdAtomic) := by
  unfold checkResource
  rw [if_neg hstate]
  split
  · exact Or.inl rfl
  · next p =>
    split
    · split
      · next hmax => exact Or.inr (Or.inr (Or.inr ⟨rfl, fun _ _ _ => hmax⟩))
      · exact Or.inr (Or.inr (Or.inl rfl))
    · next hno =>
      -- a request that gets here is no read
      have hread : ∀ q ∈ some p, q.mask.read → 0 < c.qp.attr.maxRdAtomic := by
        rintro q ⟨⟩ hread
        unfold HdrMask.readOrAtomic at hno
        rw [hread] at hno
        exact absurd rfl hno
      split
      · split
        · next srq _ =>
          rcases getSrqWqe_state c srq with hs | hs
          · exact Or.inr (Or.inl hs)
          · exact Or.inr (Or.inr (Or.inr ⟨hs, hread⟩))
        · dsimp only
          split
          · exact Or.inr (Or.inr (Or.inr ⟨rfl, hread⟩))
          · exact Or.inr (Or.inl rfl)
      · exact Or.inr (Or.inr (Or.inr ⟨rfl, hread⟩))

theorem checkResource_state_error (pkt : Option Pkt) (h : c.qp.resp.state = .error) :
    (checkResource c pkt).1 = .complete ∨ (checkResource c pkt).1 = .exit := by
  unfold checkResource
  rw [if_pos h]
  dsimp only
  split
  · exact Or.inl rfl
  · exact Or.inr rfl

theorem respDoComplete_state (c : Ctx) (pkt : Option Pkt) :
    (respDoComplete c pkt).1 = .cleanup ∨ (respDoComplete c pkt).1 = .errCqOverflow ∨
      (respDoComplete c pkt).1 = respAfterCqe (respDoComplete c pkt).2 pkt := by
  unfold respDoComplete
  split
  · exact Or.inl rfl
  · split
    · exact Or.inr (Or.inl rfl)
    · exact Or.inr (Or.inr rfl)

/-! ### Responses -/

theorem prepareAckPacket_some {pkt ack : Pkt} {opcode : Opcode} {payload : ℤ}
    {psn syndrome : ℕ}
    (h : prepareAckPacket c pkt opcode payload psn syndrome = (some ack, c')) :
    c' = c.takeSkb.2 ∧ ack.opcode = opcode ∧ ack.psn = psnMask psn ∧
      ((rxeOpcodeMask opcode).aeth → ack.aeth.syn = syndrome) ∧
      ((rxeOpcodeMask opcode).atmack → ack.atmack = c.qp.resp.atomicOrig) ∧ 0 ≤ payload := by
  unfold prepareAckPacket at h
  split at h
  · cases h
  · next c₁ hskb =>
    -- the QP does not change with the skb
    have hqp : c₁.qp = c.qp := by
      unfold Ctx.takeSkb at hskb
      split at hskb <;> (cases hskb; rfl)
    split at h
    · cases h
    · next hok =>
      obtain ⟨rfl, rfl⟩ := h
      refine ⟨by rw [hskb], rfl, rfl, ?_, ?_, by omega⟩
      · intro ha
        simp [ackPacket, ha]
      · intro ha
        simp [ackPacket, ha, hqp]

theorem prepareAckPacket_room {payload : ℤ} (pkt : Pkt) (opcode : Opcode)
    (psn syndrome : ℕ) (htake : c.takeSkb = (true, c')) (hnonneg : 0 ≤ payload) :
    prepareAckPacket c pkt opcode payload psn syndrome =
      (some (ackPacket c'.qp pkt opcode payload.toNat psn syndrome), c') := by
  unfold prepareAckPacket
  rw [htake]
  exact if_neg (not_lt.2 hnonneg)

theorem prepareAckPacket_none {pkt : Pkt} {opcode : Opcode} {payload : ℤ}
    {psn syndrome : ℕ} (h : prepareAckPacket c pkt opcode payload psn syndrome = (none, c')) :
    c' = c.takeSkb.2 ∨ payload < 0 ∧ c' = c.takeSkb.2.emit .wild := by
  unfold prepareAckPacket at h
  split at h
  · next hskb =>
    cases h
    exact Or.inl (by rw [hskb])
  · next hskb =>
    split at h
    · next hneg =>
      cases h
      exact Or.inr ⟨hneg, by rw [hskb]⟩
    · cases h

/-- Without a payload only the allocation can fail. -/
theorem prepareAckPacket_none_zero {pkt : Pkt} {opcode : Opcode} {psn syndrome : ℕ}
    (h : prepareAckPacket c pkt opcode 0 psn syndrome = (none, c')) : c' = c.takeSkb.2 :=
  (prepareAckPacket_none h).elim id fun hneg => absurd hneg.1 (lt_irrefl 0)

theorem copyFrom_cases (c : Ctx) (res : RespRes) :
    copyFrom c res = c ∨ copyFrom c res = c.emit .wild := by
  unfold copyFrom
  split
  · exact Or.inl (by rw [List.append_nil])
  · exact Or.inr rfl

theorem copyFrom_view (c : Ctx) (res : RespRes) : respView (copyFrom c res) = respView c := by
  rcases copyFrom_cases c res with h | h <;> rw [h]
  exact respView_emit c rfl

theorem takeSkb_qp (c : Ctx) : c.takeSkb.2.qp = c.qp := by
  unfold Ctx.takeSkb
  split <;> rfl

theorem takeSkb_frame (c : Ctx) : c.takeSkb.2.dev = c.dev ∧ c.takeSkb.2.out = c.out := by
  unfold Ctx.takeSkb
  split <;> exact ⟨rfl, rfl⟩

theorem takeSkb_fst (c : Ctx) : c.takeSkb.1 = c.skb.headD true := by
  unfold Ctx.takeSkb
  split
  · next h => rw [h, List.headD_nil]
  · next h => rw [h, List.headD_cons]

/-- `send_ack` sends one ACKNOWLEDGE packet, or nothing for want of an skb. -/
theorem sendAck_view (c : Ctx) (pkt : Pkt) (syndrome psn : ℕ) :
    respView (sendAck c pkt syndrome psn) = respView c ∨
      ∃ ack : Pkt, ack.opcode = .rcAcknowledge ∧ ack.psn = psnMask psn ∧ ack.aeth.syn = syndrome ∧
        respView (sendAck c pkt syndrome psn) = (respView c).emit (.sendResp ack) := by
  unfold sendAck
  split
  · next h =>
    left
    rw [prepareAckPacket_none_zero h, takeSkb_view]
  · next ack _ h =>
    right
    obtain ⟨rfl, hop, hpsn, hsyn, -, -⟩ := prepareAckPacket_some h
    exact ⟨ack, hop, hpsn, hsyn rfl, by rw [respView_emit_resp _ rfl, takeSkb_view]⟩

theorem sendClone_view (c : Ctx) (ack : Pkt) :
    respView (sendClone c ack) = respView c ∨
      respView (sendClone c ack) = (respView c).emit (.sendResp ack) := by
  unfold sendClone
  split
  · next h => exact Or.inl (by rw [respView_emit _ rfl, takeSkb_view_of h])
  · next h => exact Or.inr (by rw [respView_emit_resp _ rfl, takeSkb_view_of h])

/-! What the two ways to take a resource change. -/

theorem keepAtomicAck_view (c : Ctx) (ack : Pkt) :
    respView (keepAtomicAck c ack) = keepAtomicAck (respView c) ack := rfl

theorem initReadRes_resources (c : Ctx) (pkt : Pkt) :
    (initReadRes c pkt).qp.resp.resources =
      c.qp.resp.resources.modify c.qp.resp.resHead (RespRes.startRead c.qp pkt) := rfl

theorem initReadRes_out (c : Ctx) (pkt : Pkt) :
    (initReadRes c pkt).out = c.out := by
  dsimp only [initReadRes, rxeAdvanceRespResource, setRes]

theorem setRes_view (c : Ctx) (i : ℕ) (f : RespRes → RespRes) :
    respView (setRes c i f) = setRes (respView c) i f := rfl

theorem finishRead_view (c : Ctx) (psn : ℕ) :
    respView (finishRead c psn) = finishRead (respView c) psn := rfl

theorem finishRead_emit (c : Ctx) (e : Event) (psn : ℕ) :
    finishRead (c.emit e) psn = (finishRead c psn).emit e := rfl

/-- What a duplicate atomic leads to. -/
inductive DupAtomicCase (c : Ctx) (pkt : Pkt) : Ctx → Prop
  /-- The response kept in the resource is sent again with the PSN before `resp.psn`. -/
  | resent (i : ℕ) (r : RespRes) (ack : Pkt) (hfind : findResource c.qp pkt.psn = some i)
      (hr : c.qp.resp.resources[i]? = some r) (hptr : r.ptr = .skb ack) (hclone : c.takeSkb.1) :
      DupAtomicCase c pkt (resendAtomic c.takeSkb.2 i ack (psnSub c.qp.resp.psn 1))
  /-- There is nothing to clone, or the clone fails. -/
  | dropped (c' : Ctx) (hc' : c' = c ∨ c' = c.takeSkb.2)
      (hfound : ∀ i r, findResource c.qp pkt.psn = some i → c.qp.resp.resources[i]? = some r →
        ∃ ack, r.ptr = .skb ack ∧ c.takeSkb.1 = false) : DupAtomicCase c pkt c'
  /-- The resource found does not keep a response. -/
  | wild (i : ℕ) (r : RespRes) (hfind : findResource c.qp pkt.psn = some i)
      (hr : c.qp.resp.resources[i]? = some r) (hptr : ∀ ack, r.ptr ≠ .skb ack) :
      DupAtomicCase c pkt (c.emit .wild)

theorem duplicateAtomic_cases (c : Ctx) (pkt : Pkt) :
    DupAtomicCase c pkt (duplicateAtomic c pkt) := by
  unfold duplicateAtomic
  split
  · next hfind => exact .dropped c (Or.inl rfl) fun i r hi => nomatch hfind.symm.trans hi
  · next i hfind =>
    split
    · next hnone =>
      refine .dropped c (Or.inl rfl) fun j r hj hr => ?_
      obtain rfl : i = j := Option.some_inj.1 (hfind.symm.trans hj)
      exact nomatch hnone.symm.trans hr
    · next r hr =>
      split
      · next ack hptr =>
        have hqp := takeSkb_qp c
        split
        · next c' htake =>
          refine .dropped c' (Or.inr (by rw [htake])) fun j r' hj hr' => ?_
          obtain rfl : i = j := Option.some_inj.1 (hfind.symm.trans hj)
          obtain rfl : r = r' := Option.some_inj.1 (hr.symm.trans hr')
          exact ⟨ack, hptr, by rw [htake]⟩
        · next c' htake =>
          have hcase := DupAtomicCase.resent i r ack hfind hr hptr (by rw [htake])
          rw [htake] at hqp hcase
          rw [hqp]
          exact hcase
      · next hptr => exact .wild i r hfind hr hptr

/-- A duplicate atomic leads to the response kept in the resource found, or shows nothing. -/
theorem duplicateAtomic_view (c : Ctx) (pkt : Pkt) :
    (∃ i r ack, c.qp.resp.resources[i]? = some r ∧ r.ptr = .skb ack ∧
      duplicateAtomic c pkt = resendAtomic c.takeSkb.2 i ack (psnSub c.qp.resp.psn 1)) ∨
    respView (duplicateAtomic c pkt) = respView c := by
  have hcase := duplicateAtomic_cases c pkt
  generalize duplicateAtomic c pkt = d at hcase
  cases hcase with
  | resent i r ack _ hr hptr => exact Or.inl ⟨i, r, ack, hr, hptr, rfl⟩
  | dropped _ hc =>
    rcases hc with hc | hc <;> rw [hc]
    · exact Or.inr rfl
    · exact Or.inr (takeSkb_view c)
  | wild => exact Or.inr (respView_emit c rfl)

theorem rxeQpError_view (hrc : c.qp.type = .rc) :
    respView (rxeQpError c) = toErrorState (respView c) := by
  have h : rxeQpError c = (((toErrorState c).emit .runResp).emit .runComp).emit .runReq := by
    rw [rxeQpError]
    rw [if_pos (show ((toErrorState c).emit .runResp).qp.type = .rc from hrc)]
  rw [h, respView_emit _ rfl, respView_emit _ rfl, respView_emit _ rfl]
  rfl

/-! ### Runs -/

/-- What can happen to a responder. -/
inductive RespOp
  /-- A request arrives (`rxe_resp_queue_pkt`). -/
  | recv (pkt : Pkt)
  /-- The task calls `rxe_responder`. -/
  | task (fuel : ℕ)
  | postRecv (wrs : List RecvWr)
  /-- Another task moves the QP to the error state. -/
  | error
  /-- Memory, regions, the allocator and the CQs change. -/
  | env (dev : Dev) (skb cq : List Bool)

def respOp (c : Ctx) : RespOp → Option Ctx
  | .recv pkt => some (rxeRespQueuePkt c pkt)
  | .task fuel => (rxeResponder fuel c).map (·.2)
  | .postRecv wrs => some (rxePostRecv c wrs).2
  | .error => some (rxeQpError c)
  | .env dev skb cq => some { c with dev, skb, cq }

/-- A run: the events accumulate in `out`. -/
def respRun (c : Ctx) (ops : List RespOp) : Option Ctx := ops.foldlM respOp c

theorem respRun_inv {I : Ctx → Prop} {ok : RespOp → Prop}
    (hop : ∀ c op c', I c → ok op → respOp c op = some c' → I c') :
    ∀ {ops : List RespOp} {c c' : Ctx}, I c → (∀ op ∈ ops, ok op) → respRun c ops = some c' →
      I c' := by
  intro ops
  induction ops with
  | nil =>
    intro c c' hI _ h
    obtain rfl : c = c' := by simpa [respRun] using h
    exact hI
  | cons op ops ih =>
    intro c c' hI hok h
    obtain ⟨c₁, h₁, h₂⟩ := Option.bind_eq_some_iff.1 h
    exact ih (hop c op c₁ hI (hok op List.mem_cons_self) h₁)
      (fun o ho => hok o (List.mem_cons_of_mem op ho)) h₂

end Rxe
