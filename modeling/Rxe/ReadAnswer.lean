/-
The whole answer to an RDMA READ.

From the state READ_REPLY on a read is answered over several calls of `rxe_responder`, between
which requests and receives are queued.  Where allocations succeed and memory stays as it is,
the responses depend only on the request and on the region that the resource refers to.

* `readPieces` — the payloads, `readAnswer` — the responses to a new request;
* `AnswerRun` — the calls up to the end of the answer;
* `answerRun_resps` — what was sent when the answer ends, `answerRun_exists` — it ends.
-/
import Rxe.ReadStream

namespace Rxe

open Framing

/-! ### The responses -/

/-- The payloads of `n` responses from an address on. -/
def readPieces (dev : Dev) (ptr : ResPtr) (mtu : ℕ) : ℕ → ℕ → ℕ → List (List UInt8)
  | 0, _, _ => []
  | n + 1, va, len =>
    regionData dev ptr va (min len mtu) ::
      readPieces dev ptr mtu n ((va + mtu) % 2 ^ 64) (len - mtu)

/-- The payloads of the responses to a read that are left. -/
def RespRes.pieces (dev : Dev) (mtu : ℕ) (r : RespRes) : List (List UInt8) :=
  readPieces dev r.ptr mtu (count mtu r.resid) r.va r.resid

/-- The answer to a read, from a region. -/
def readAnswer (dev : Dev) (ptr : ResPtr) (mtu : ℕ) (p : Pkt) : List ReadResp :=
  numbered p.psn
    (framed true (readPieces dev ptr mtu (count mtu p.reth.len) p.reth.va p.reth.len))

section Pieces

variable {dev : Dev} {mtu : ℕ} {r : RespRes}

theorem pieces_last (hmtu : 0 < mtu) (hle : r.resid ≤ mtu) :
    r.pieces dev mtu = [regionData dev r.ptr r.va (min r.resid mtu)] := by
  unfold RespRes.pieces
  rw [count_of_le hmtu hle]
  rfl

theorem pieces_more (hmtu : 0 < mtu) (hlt : mtu < r.resid) :
    r.pieces dev mtu = regionData dev r.ptr r.va (min r.resid mtu) ::
      (r.started.advance mtu).pieces dev mtu := by
  unfold RespRes.pieces
  rw [count_of_lt hmtu hlt]
  rfl

theorem readPieces_lengths (dev dev' : Dev) (ptr ptr' : ResPtr) (mtu n va len : ℕ) :
    (readPieces dev ptr mtu n va len).map List.length =
      (readPieces dev' ptr' mtu n va len).map List.length := by
  induction n generalizing va len with
  | zero => rfl
  | succ n ih =>
    rw [readPieces, readPieces, List.map_cons, List.map_cons, regionData_length,
      regionData_length, ih]

/-- `rxe_mem_copy` finds the addresses for each of `n` responses from an address on. -/
def Copied (mem : Mem) (mtu : ℕ) : ℕ → ℕ → ℕ → Prop
  | 0, _, _ => True
  | n + 1, va, len =>
    (∃ addrs, memAddrs mem va (min len mtu) = .ok addrs) ∧
      Copied mem mtu n ((va + mtu) % 2 ^ 64) (len - mtu)

theorem readPieces_unchanged {dev' : Dev} {m : ℕ} {mem : Mem} (hmem : dev.mem m = some mem)
    (hmem' : dev'.mem m = some mem) (hbyte : dev'.byte = dev.byte) {n va len : ℕ}
    (hcopy : Copied mem mtu n va len) :
    readPieces dev' (.mr m) mtu n va len = readPieces dev (.mr m) mtu n va len := by
  induction n generalizing va len with
  | zero => rfl
  | succ n ih =>
    obtain ⟨⟨addrs, haddrs⟩, hrest⟩ := hcopy
    rw [readPieces, readPieces, ih hrest]
    simp only [regionData, ResPtr.region, Option.bind_some, hmem, hmem', rxeMemCopyOut, haddrs,
      hbyte]

end Pieces

/-! ### The calls -/

/-- What happens between the calls: memory and the allocator stay as they are. -/
def RespOp.calm : RespOp → Prop
  | .recv _ | .postRecv _ => True
  | _ => False

/-- The context at the start of a call. -/
def Ctx.called (c : Ctx) : Ctx := { c with qp.resp.aethSyndrome := aethAckUnlimited }

/-- The rest of a call, and further calls up to the end of the answer. -/
inductive AnswerRun : RespCfg → Ctx → Prop
  | last {s : RespCfg} {c' : Ctx} {n : ℕ} {b : Bool} (hcall : Loop.run respStep n s = some (b, c'))
      (hres : c'.qp.resp.res = none) : AnswerRun s c'
  | more {s : RespCfg} {c₁ c₂ c' : Ctx} {n : ℕ} {b : Bool} {ops : List RespOp}
      (hcall : Loop.run respStep n s = some (b, c₁)) (hres : c₁.qp.resp.res ≠ none)
      (hops : ∀ op ∈ ops, op.calm) (hidle : respRun c₁ ops = some c₂)
      (hrest : AnswerRun ⟨.getReq, none, c₂.called⟩ c') : AnswerRun s c'

/-- The read `p` is under way; `total` are the payloads of all its responses, `mem` is the region
that they come from, and `base` is what was sent before it. -/
structure Answering (p : Pkt) (new : Bool) (base : List Event) (total : List (List UInt8))
    (mem : Option Mem) (c : Ctx) : Prop where
  working : Working c
  head : c.qp.reqPkts.head? = some p
  small : p.reth.len < 2 ^ 31
  serves : ∃ i r ps es, Serves c p i r new (readResps base) ps ∧
    ps ++ r.pieces c.dev c.qp.mtu = total ∧ r.region.bind c.dev.mem = mem ∧
    c.out = base ++ es ∧ (.wild ∈ es ↔ ps ≠ [] ∧ mem = none)

/-- The read has been answered. -/
structure AnswerEnd (p : Pkt) (new : Bool) (base : List Event) (total : List (List UInt8))
    (mem : Option Mem) (mtu : ℕ) (c : Ctx) : Prop where
  res : c.qp.resp.res = none
  psn : c.qp.resp.psn = psnMask (p.psn + total.length)
  cut : ∃ data, Cut mtu data total ∧ data.length = p.reth.len
  resps : ∃ es, c.out = base ++ es ∧ readResps es = numbered p.psn (framed new total) ∧
    (.wild ∈ es ↔ mem = none)

section Calls

variable {c c' : Ctx} {p : Pkt} {new : Bool} {base : List Event} {total : List (List UInt8)}
  {mem : Option Mem}

theorem copyFrom_wild (c : Ctx) (r : RespRes) :
    ∃ es, (copyFrom c r).out = c.out ++ es ∧ (.wild ∈ es ↔ r.region.bind c.dev.mem = none) := by
  refine ⟨_, rfl, ?_⟩
  cases r.region.bind c.dev.mem <;> simp

theorem Serves.sent {i : ℕ} {r : RespRes} {before : List ReadResp} {ps : List (List UInt8)}
    (h : Serves c p i r new before ps) : (readResps c.out).length = before.length + ps.length := by
  rw [h.resps, List.length_append, numbered, List.length_mapIdx, length_opened]

theorem Answering.sent_le (h : Answering p new base total mem c) :
    (readResps c.out).length ≤ (readResps base).length + total.length := by
  obtain ⟨i, r, ps, es, hserve, htotal, -⟩ := h.serves
  rw [hserve.sent, ← htotal, List.length_append]
  omega

theorem Answering.reply (h : Answering p new base total mem c) :
    ∃ c₁, Loop.run respStep 3 ⟨.readReply, some p, c⟩ = some (true, c₁) ∧ c₁.qp.mtu = c.qp.mtu ∧
      (c₁.qp.resp.res ≠ none ∧ Answering p new base total mem c₁ ∧
          (readResps c.out).length < (readResps c₁.out).length ∨
        AnswerEnd p new base total mem c.qp.mtu c₁) := by
  obtain ⟨hw, hhead, hsmall, i, r, ps, es₀, hserve, htotal, hmem, hout, hwild⟩ := h
  have hresid := hserve.resid
  obtain ⟨-, psn, opcode, resources, resHead, mr, res, skb, es, -, hframe⟩ := readReply_frame c p
  obtain ⟨x, c₁, hx, hskb, ⟨ack, hack⟩, hcase⟩ := readReply_serves hserve
    (by unfold Ctx.skbRoom; rw [hw.alloc]; exact nofun) hsmall hw.mtu_lt
  rw [readData_eq] at hx
  -- what the pass sends is added to what was sent for the read
  have hsent : ∃ es, c₁.out = base ++ es ∧ (.wild ∈ es ↔ ps ++ [x] ≠ [] ∧ mem = none) := by
    obtain ⟨es, hes, hcopy⟩ := copyFrom_wild c r
    refine ⟨es₀ ++ es ++ [.sendResp ack],
      by rw [hack, hes, hout]; simp only [List.append_assoc], ?_⟩
    rw [hmem] at hcopy
    simp only [List.mem_append, hwild, hcopy, List.mem_singleton]
    simp
  have hstep : ∀ state, readReply c p = (state, c₁) →
      respStep ⟨.readReply, some p, c⟩ = .inl ⟨state, some p, c₁⟩ := by
    intro state heq
    show Sum.inl _ = _
    rw [heq]
  rcases hcase with ⟨hreply, hmore, -, r', hserve', hr'⟩ | ⟨hreply, hres, hpsn, hcut, hlen, hresps⟩
  · rw [hreply] at hframe
    have hframe : c₁ = _ := hframe
    have hnoError : c₁.qp.resp.gotoError = false := by rw [hframe]; exact hw.noError
    have hmtu : c₁.qp.mtu = c.qp.mtu := by rw [hframe]
    have hdev : c₁.dev = c.dev := by rw [hframe]
    obtain ⟨es₁, hout₁, hwild₁⟩ := hsent
    refine ⟨c₁, ?_, hmtu, Or.inl ⟨by rw [hserve'.res]; exact nofun, ⟨⟨?_, ?_, hnoError,
      hskb hw.alloc, ?_, ?_⟩, ?_, hsmall, i, r', ps ++ [x], es₁, hserve', ?_, ?_, hout₁, hwild₁⟩,
      ?_⟩⟩
    · rw [Loop.run_succ_inl (hstep _ hreply), Loop.run_succ_inr (step_done _ hnoError)]
    · rw [hframe]; exact hw.valid
    · rw [hframe]; exact hw.ready
    · rw [hmtu]; exact hw.mtu
    · rw [hmtu]; exact hw.mtu_lt
    · rw [hframe]; exact hhead
    · rw [Nat.succ_mul] at hmore
      rw [← htotal, pieces_more hw.mtu (show c.qp.mtu < r.resid by omega), hx, hr', hdev, hmtu,
        List.append_assoc]
      rfl
    · rw [hr', hdev]
      exact hmem
    · rw [hserve.sent, hserve'.sent, List.length_append, List.length_singleton]
      omega
  -- the last response: the rest that was to come is this one payload
  · rw [hreply] at hframe
    have hframe : c₁ = _ := hframe
    have hnoError : (cleanup c₁ (some p)).qp.resp.gotoError = false := by
      rw [hframe]; exact hw.noError
    have hle : r.resid ≤ c.qp.mtu := by
      have hxlen : x.length = min r.resid c.qp.mtu := by
        rw [hx]
        exact regionData_length ..
      rw [List.length_append, length_flatten_full hserve.full, hxlen] at hlen
      omega
    have hlast : ps ++ [x] = total := by
      rw [← htotal, pieces_last hw.mtu hle, hx]
    obtain ⟨es₁, hout₁, hwild₁⟩ := hsent
    rw [hout₁, readResps, List.filterMap_append] at hresps
    rw [hlast] at hpsn hcut hresps
    refine ⟨cleanup c₁ (some p), ?_, by rw [hframe]; rfl,
      Or.inr ⟨hres, hpsn, ⟨_, hcut, hlen⟩, es₁, hout₁, List.append_cancel_left hresps, ?_⟩⟩
    rotate_left
    · simpa using hwild₁
    rw [Loop.run_succ_inl (hstep _ hreply), Loop.run_succ_inl (step_cleanup c₁ _),
      Loop.run_succ_inr (step_done _ hnoError)]

theorem Answering.getReq (h : Answering p new base total mem c) :
    respStep ⟨.getReq, none, c⟩ = .inl ⟨.readReply, some p, c⟩ := by
  obtain ⟨i, r, ps, es, hserve, -⟩ := h.serves
  obtain ⟨rest, hq⟩ := List.head?_eq_some_iff.1 h.head
  refine step_getReq ?_
  unfold Rxe.getReq
  rw [if_neg (by rw [h.working.ready]; decide), hq]
  rw [hserve.res]
  rfl

theorem Answering.called (h : Answering p new base total mem c) :
    Answering p new base total mem c.called := by
  obtain ⟨hw, hhead, hsmall, i, r, ps, es, hserve, hrest⟩ := h
  exact ⟨{ hw with }, hhead, hsmall, i, r, ps, es, { hserve with }, hrest⟩

theorem Answering.calm {op : RespOp} (h : Answering p new base total mem c) (hop : op.calm)
    (hc : respOp c op = some c') : Answering p new base total mem c' ∧ c'.qp.mtu = c.qp.mtu := by
  obtain ⟨hw, hhead, hsmall, i, r, ps, es, hserve, htotal, hmem, hout, hwild⟩ := h
  cases op with
  | recv q =>
    cases hc
    refine ⟨⟨{ hw with }, ?_, hsmall, i, r, ps, es ++ [.runResp], { hserve with resps := ?_ },
      htotal, hmem, ?_, ?_⟩, rfl⟩
    · show (c.qp.reqPkts ++ [q]).head? = some p
      rw [List.head?_append, hhead]
      rfl
    · exact (readResps_append_silent c.out (Or.inr rfl)).trans hserve.resps
    · show c.out ++ [.runResp] = _
      rw [hout, List.append_assoc]
    · simpa using hwild
  | postRecv wrs =>
    cases hc
    unfold rxePostRecv
    split
    · exact ⟨⟨hw, hhead, hsmall, i, r, ps, es, hserve, htotal, hmem, hout, hwild⟩, rfl⟩
    · exact ⟨⟨{ hw with }, hhead, hsmall, i, r, ps, es, { hserve with }, htotal, hmem, hout, hwild⟩,
        rfl⟩
  | task | error | env => exact hop.elim

theorem Answering.calm_run {ops : List RespOp} (h : Answering p new base total mem c)
    (hops : ∀ op ∈ ops, op.calm) (hidle : respRun c ops = some c') :
    Answering p new base total mem c' ∧ c'.qp.mtu = c.qp.mtu :=
  respRun_inv (I := fun d => Answering p new base total mem d ∧ d.qp.mtu = c.qp.mtu)
    (fun _ _ _ hd hop hc => ⟨(hd.1.calm hop hc).1, (hd.1.calm hop hc).2.trans hd.2⟩)
    ⟨h, rfl⟩ hops hidle

/-- A configuration in which the next response is due. -/
def RespCfg.due (s : RespCfg) (p : Pkt) : Prop :=
  s.state = .readReply ∧ s.pkt = some p ∨ s.state = .getReq ∧ s.pkt = none

theorem Answering.call {s : RespCfg} (h : Answering p new base total mem s.c) (hdue : s.due p) :
    ∃ n c₁, Loop.run respStep n s = some (true, c₁) ∧ c₁.qp.mtu = s.c.qp.mtu ∧
      (c₁.qp.resp.res ≠ none ∧ Answering p new base total mem c₁ ∧
          (readResps s.c.out).length < (readResps c₁.out).length ∨
        AnswerEnd p new base total mem s.c.qp.mtu c₁) := by
  obtain ⟨state, pkt, c⟩ := s
  obtain ⟨c₁, hrun, hout⟩ := h.reply
  rcases hdue with ⟨hstate, hpkt⟩ | ⟨hstate, hpkt⟩
  · cases hstate
    cases hpkt
    exact ⟨3, c₁, hrun, hout⟩
  · cases hstate
    cases hpkt
    exact ⟨4, c₁, (Loop.run_succ_inl h.getReq).trans hrun, hout⟩

/-- What was sent when the answer has ended. -/
theorem answerRun_resps {s : RespCfg} (hrun : AnswerRun s c') :
    Answering p new base total mem s.c → s.due p →
      AnswerEnd p new base total mem s.c.qp.mtu c' := by
  induction hrun with
  | last hcall hres =>
    intro h hdue
    obtain ⟨n, c₁, hrun, -, hcase⟩ := h.call hdue
    cases Loop.run_unique hcall hrun
    rcases hcase with ⟨hsome, -⟩ | hend
    · exact absurd hres hsome
    · exact hend
  | @more s c₁ c₂ c' n b ops hcall hres hops hidle hrest ih =>
    intro h hdue
    obtain ⟨n', c₁', hrun, hmtu, hcase⟩ := h.call hdue
    cases Loop.run_unique hcall hrun
    rcases hcase with ⟨-, hnext, -⟩ | hend
    · obtain ⟨hnext, hmtu'⟩ := hnext.calm_run hops hidle
      have hend := ih hnext.called (Or.inr ⟨rfl, rfl⟩)
      rw [← hmtu, ← hmtu']
      exact hend
    · exact absurd hend.res hres

/-- The answer ends. -/
theorem answerRun_exists {s : RespCfg} (h : Answering p new base total mem s.c) (hdue : s.due p) :
    ∃ c', AnswerRun s c' := by
  -- every call that does not end the answer sends one of the responses that are left
  obtain ⟨left, hleft⟩ : ∃ n,
      n = (readResps base).length + total.length - (readResps s.c.out).length :=
    ⟨_, rfl⟩
  induction left using Nat.strong_induction_on generalizing s with
  | _ left ih =>
    obtain ⟨n, c₁, hrun, -, hcase⟩ := h.call hdue
    rcases hcase with ⟨hres, hnext, hsent⟩ | hend
    · have hbound := hnext.sent_le
      obtain ⟨c', hrest⟩ := ih ((readResps base).length + total.length - (readResps c₁.out).length)
        (by omega) (s := ⟨.getReq, none, c₁.called⟩) hnext.called (Or.inr ⟨rfl, rfl⟩) rfl
      have hidle : respRun c₁ [] = some c₁ := rfl
      exact ⟨c', .more hrun hres (List.forall_mem_nil _) hidle hrest⟩
    · exact ⟨c₁, .last hrun hend.res⟩

end Calls

end Rxe
