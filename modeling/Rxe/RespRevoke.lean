/-
Deregistration of a memory region (`rxe_dereg_mr`).

`rxe_dereg_mr` takes the region out of its pool and marks it as a zombie; from then on no
lookup finds it.  The responder keeps pointers of its own: `resp.mr` from `check_rkey` to
the end of the packet, and the pointer of every responder resource until the resource is
recycled.  `rxe_mem_copy` does not look at the state of the region.

* `dereg_untouched` — in every run after a deregistration, no pass of the responder touches
  the region, provided that the responder was not using it at that moment and that no
  duplicate READ is replayed from it;
* `dereg_replayed` — a duplicate READ is answered with the contents of a region that has
  been deregistered.

The pool may give the index of the region to a new one at once.  The statements are about the
region itself: `Dev.index` says which region an index leads to.
-/
import Rxe.RemoteAccess
import Rxe.RespReplay

namespace Rxe

/-- `mr->state = RXE_MEM_STATE_ZOMBIE` -/
def Mem.zombie (mem : Mem) : Mem := { mem with state := .zombie }

/-- `rxe_dereg_mr`: no index leads to the region any more, but those who refer to it keep it. -/
def rxeDeregMr (dev : Dev) (m : ℕ) : Dev :=
  { dev with
    mem := Function.update dev.mem m ((dev.mem m).map Mem.zombie)
    index := fun i => if dev.index i = some m then none else dev.index i }

/-! ### The regions a pass touches -/

/-- A piece of a scatter that also records the region it went to. -/
def scatterLog (pd : ℕ) (access : Option Access) (s : (Dev × List UInt8) × List ℕ)
    (lkey iova bytes : ℕ) : Except Errno ((Dev × List UInt8) × List ℕ) :=
  match scatterPiece pd access s.1 lkey iova bytes with
  | .error e => .error e
  | .ok s' => .ok (s', s.2 ++ (lookupMem s.1.1 pd access lkey .local).toList)

/-- The regions `send_data_in` stores data in. -/
def sendRegions (c : Ctx) (data : List UInt8) : List ℕ :=
  match recvWqe c.qp with
  | none => []
  | some wqe =>
    (copyDataWith (scatterLog c.qp.pd (some .localWrite)) wqe.dma data.length
      ((c.dev, data), [])).2.1.2

/-- The regions `execute` stores the data of a SEND in. -/
def executeRegions (c : Ctx) (pkt : Pkt) : List ℕ :=
  if pkt.mask.send then
    if c.qp.type = .ud ∨ c.qp.type = .smi ∨ c.qp.type = .gsi then
      sendRegions c pkt.grh ++ sendRegions (sendDataIn c pkt.grh).2 pkt.payload
    else sendRegions c pkt.payload
  else []

/-- The regions that exist whose bytes a pass of the responder reads or writes. -/
def touched (s : RespCfg) : List ℕ :=
  (match s.state, s.pkt with
    | .execute, some pkt => executeRegions s.c pkt
    | _, _ => []) ++
  (((remoteAccess s).filter fun a => 0 < a.len).bind RemoteAccess.region).toList.filter
    fun m => (s.c.dev.mem m).isSome

theorem copyLoop_scatterLog (pd : ℕ) (access : Option Access) (sges : List Sge)
    (cur offset resid length : ℕ) (s : (Dev × List UInt8) × List ℕ) :
    copyLoop (scatterPiece pd access) sges cur offset resid length s.1 =
      (copyLoop (scatterLog pd access) sges cur offset resid length s).map id
        (Prod.map Prod.fst id) := by
  induction sges generalizing cur offset resid length s with
  | nil =>
    unfold copyLoop
    split <;> rfl
  | cons sge rest ih =>
    unfold copyLoop
    split
    · rfl
    · split
      · exact ih ..
      · dsimp only
        rw [scatterLog]
        cases scatterPiece pd access s.1 sge.lkey (sge.addr + offset)
            (min length (sge.length - offset)) with
        | error e => rfl
        | ok s' =>
          dsimp only
          split
          · rfl
          · exact ih _ _ _ _ (s', _)

theorem copyDataWith_scatterLog (pd : ℕ) (access : Option Access) (dma : DmaInfo) (length : ℕ)
    (s : (Dev × List UInt8) × List ℕ) : copyDataWith (scatterPiece pd access) dma length s.1 =
      (copyDataWith (scatterLog pd access) dma length s).map id (Prod.map Prod.fst id) := by
  unfold copyDataWith
  rw [copyLoop_scatterLog]
  split
  · rfl
  · split
    · rfl
    · generalize copyLoop (scatterLog pd access) _ _ _ _ length s = r
      obtain ⟨cur, s', e | r⟩ := r <;> rfl

/-! ### The region stays untouched -/

/-- A duplicate READ of at least one byte that would be replayed from the region. -/
def replaysFrom (c : Ctx) (pkt : Pkt) (m : ℕ) : Prop :=
  pkt.mask.read ∧ 0 < pkt.reth.len ∧ ∃ i res, findResource c.qp pkt.psn = some i ∧
    c.qp.resp.resources[i]? = some res ∧ replayOk res pkt ∧ res.ptr = .mr m

/-- A read in progress has bytes left to be answered from the region. -/
def Ctx.readsFrom (c : Ctx) (m : ℕ) : Prop :=
  ∃ i res, c.qp.resp.res = some i ∧ c.qp.resp.resources[i]? = some res ∧ res.ptr = .mr m ∧
    0 < res.resid

/-- The packet at hand has passed `check_rkey` with the region and is about to be executed. -/
def RespCfg.aboutToUse (s : RespCfg) (m : ℕ) : Prop :=
  s.c.qp.resp.mr = some m ∧
    (s.state = .execute ∧ (∃ p ∈ s.pkt, p.mask.write ∧ p.payload ≠ [] ∨
        p.mask.read ∧ 0 < s.c.qp.resp.resid) ∨
      s.state = .readReply ∧ s.c.qp.resp.res = none ∧ 0 < s.c.qp.resp.resid)

/-- The responder is using the region. -/
def RespSys.uses : RespSys → ℕ → Prop
  | .idle c, m => c.readsFrom m
  | .busy s, m => s.c.readsFrom m ∨ s.aboutToUse m

/-- What may happen after the deregistration: the region is not made valid again, and no duplicate
READ is replayed from it.  Other regions come and go, also under its index. -/
def RevokeOk (m : ℕ) (sys : RespSys) : RespAct → Prop
  | .env dev _ _ => ∀ mem, dev.mem m = some mem → mem.state ≠ .valid
  | .pass => ∀ s p, sys = .busy s → s.state = .duplicateRequest → s.pkt = some p →
      ¬ replaysFrom s.c p m
  | _ => True

/-- What holds between two calls. -/
structure Revoked (m : ℕ) (c : Ctx) : Prop where
  dead : ∀ mem, c.dev.mem m = some mem → mem.state ≠ .valid
  unread : ¬ c.readsFrom m

/-- What is known about the region in each state. -/
def revokedPhase (m : ℕ) (c : Ctx) (p : Pkt) : RespState → Prop
  | .execute => c.qp.resp.mr = some m →
      (p.mask.write → p.payload = []) ∧ (p.mask.read → c.qp.resp.resid = 0)
  | .readReply => c.qp.resp.res = none → c.qp.resp.mr = some m → c.qp.resp.resid = 0
  | _ => True

/-- The invariant of the loop. -/
structure RevokedLoop (m : ℕ) (state : RespState) (pkt : Option Pkt) (c : Ctx) : Prop
    extends Revoked m c where
  phase : ∀ p ∈ pkt, revokedPhase m c p state

section Step

variable {m : ℕ} {pkt : Option Pkt} {p : Pkt} {c c' : Ctx} {state state' : RespState}

theorem revokedPhase_of_other (h : state ≠ .execute ∧ state ≠ .readReply) :
    revokedPhase m c p state := by
  obtain ⟨hexec, hread⟩ := h
  cases state <;> trivial

theorem other_of_not_working (h : state.working = false) :
    state ≠ .execute ∧ state ≠ .readReply := by
  constructor <;> rintro rfl <;> cases h

theorem lookupMem_ne {dev : Dev} {pd key i : ℕ} {access : Option Access} {type : LookupType}
    (hdead : ∀ mem, dev.mem m = some mem → mem.state ≠ .valid)
    (h : lookupMem dev pd access key type = some i) : i ≠ m := by
  rintro rfl
  obtain ⟨mem, hmem, hvalid, -⟩ := lookupMem_some h
  exact hdead mem hmem hvalid

theorem Revoked.goto (h : Revoked m c) (hmem : c'.dev.mem = c.dev.mem)
    (hres : c'.qp.resp.res = c.qp.resp.res)
    (hresources : c'.qp.resp.resources = c.qp.resp.resources)
    (hstate : state' ≠ .execute ∧ state' ≠ .readReply) : RevokedLoop m state' pkt c' where
  dead := hmem ▸ h.dead
  unread := by
    unfold Ctx.readsFrom
    rw [hres, hresources]
    exact h.unread
  phase _ _ := revokedPhase_of_other hstate

theorem Revoked.setRes (h : Revoked m c) (i : ℕ) {f : RespRes → RespRes}
    (hf : ∀ r, (f r).ptr = .mr m ∧ 0 < (f r).resid → r.ptr = .mr m ∧ 0 < r.resid) :
    Revoked m (setRes c i f) where
  dead := h.dead
  unread := by
    rintro ⟨j, res, hj, hres, hleft⟩
    obtain ⟨b, hb, rfl⟩ := getElem?_modify_some hres
    refine h.unread ⟨j, b, hj, hb, ?_⟩
    split at hleft
    · exact hf b hleft
    · exact hleft

theorem getReq_revoked (h : RevokedLoop m .getReq pkt c) :
    RevokedLoop m (getReq c pkt).1 (getReq c pkt).2.1 (getReq c pkt).2.2 := by
  unfold getReq
  split
  · split <;> exact h.toRevoked.goto rfl rfl rfl (by simp)
  · split
    · exact h.toRevoked.goto rfl rfl rfl (by simp)
    · split
      · next hres =>
        refine { h with phase := ?_ }
        intro q _ hnone
        rw [hnone] at hres
        cases hres
      · exact h.toRevoked.goto rfl rfl rfl (by simp)

theorem checkRkey_revoked (h : RevokedLoop m .chkRkey (some p) c) :
    RevokedLoop m (checkRkey c p).1 (some p) (checkRkey c p).2 := by
  obtain ⟨va, rkey, resid, htarget⟩ := setTarget_frame c p
  rcases checkRkey_outcome c p with ⟨hlocal, heq⟩ | ⟨-, ⟨state, hstate, heq⟩ | ⟨i, heq, hfound, -⟩⟩
  · rw [heq]
    refine { h with phase := ?_ }
    rintro q hq _
    cases hq
    simp only [Bool.or_eq_false_iff] at hlocal
    rw [hlocal.1.1, hlocal.1.2]
    exact ⟨by rintro ⟨⟩, by rintro ⟨⟩⟩
  · rw [heq, htarget]
    refine h.toRevoked.goto rfl rfl rfl ?_
    rcases hstate with rfl | rfl <;> exact ⟨nofun, nofun⟩
  · rw [htarget] at heq hfound
    rw [heq]
    refine { h with phase := ?_ }
    rintro q hq hmr
    cases hmr
    exact (lookupMem_ne h.dead hfound rfl).elim

theorem execute_revoked (h : RevokedLoop m .execute (some p) c) :
    RevokedLoop m (execute c p).1 (some p) (execute c p).2 := by
  rcases execute_cases c p with
    ⟨hread, heq⟩ | ⟨_, _, _, _, _, _, d, rfl, ⟨err, hmem, heq⟩ | heq⟩ <;>
    rw [heq]
  · refine { h with phase := ?_ }
    rintro q hq _ hmr
    cases hq
    exact (h.phase p rfl hmr).2 hread
  · refine h.toRevoked.goto rfl rfl rfl ?_
    rcases hmem with rfl | rfl | rfl | rfl <;> exact ⟨nofun, nofun⟩
  · refine h.toRevoked.goto rfl rfl rfl ?_
    rcases executeDone_next _ p with ⟨-, hs⟩ | ⟨-, hs | hs⟩ <;> rw [hs] <;> decide

theorem RevokedLoop.initRead (h : RevokedLoop m .readReply (some p) c) :
    Revoked m (if c.qp.resp.res.isNone then initReadRes c p else c) := by
  split
  · next hnone =>
    have hresid := h.phase p rfl (Option.isNone_iff_eq_none.1 hnone)
    obtain ⟨head, hc⟩ := initReadRes_frame c p
    refine ⟨h.dead, ?_⟩
    rintro ⟨j, res, hj, hres, hptr, hleft⟩
    cases hj
    obtain ⟨b, -, rfl⟩ := getElem?_modify_some hres
    rw [if_pos rfl] at hptr hleft
    dsimp only [RespRes.startRead] at hptr hleft
    split at hptr
    · cases hptr
    · next m' hm' =>
      cases hptr
      -- a resource that holds the region has nothing left to send
      exact hleft.ne' (hresid hm')
  · exact h.toRevoked

theorem readReply_revoked (h : RevokedLoop m .readReply (some p) c) :
    RevokedLoop m (readReply c p).1 (some p) (readReply c p).2 := by
  have hinit := h.initRead
  unfold readReply
  dsimp only
  generalize (if c.qp.resp.res.isNone then initReadRes c p else c) = c₁ at hinit
  split
  · exact hinit.goto rfl rfl rfl (by simp)
  · next i _ =>
    split
    · exact hinit.goto rfl rfl rfl (by simp)
    · next r _ =>
      obtain ⟨skb, es, -, hleave, hcases⟩ := readReplyRes_cases c₁ p i r
      have hother := other_of_not_working hleave
      have hstart := hinit.setRes i (f := RespRes.started) fun _ h => h
      rcases hcases with hc | ⟨n, hc | hc⟩
      · rw [hc]
        exact hstart.goto rfl rfl rfl hother
      · rw [hc]
        have hadvance := hstart.setRes i (f := RespRes.advance n)
          fun r h => ⟨h.1, h.2.trans_le (Nat.sub_le r.resid n)⟩
        exact hadvance.goto rfl rfl rfl hother
      · rw [hc]
        exact { dead := hstart.dead
                unread := by rintro ⟨j, res, hj, -⟩; cases hj
                phase := fun _ _ => revokedPhase_of_other hother }

theorem duplicateRequest_revoked (h : RevokedLoop m .duplicateRequest (some p) c)
    (hreplay : ¬ replaysFrom c p m) :
    RevokedLoop m (duplicateRequest c p).1 (some p) (duplicateRequest c p).2 := by
  by_cases hread : p.mask.read
  · rw [duplicateRequest_of_read c hread]
    rcases duplicateRead_cases c p with hdrop | ⟨i, res, hfind, hres, hok, heq⟩
    · rw [hdrop]
      exact h.toRevoked.goto rfl rfl rfl (by simp)
    · rw [heq]
      refine { dead := h.dead, unread := ?_, phase := ?_ }
      · rintro ⟨j, r, hj, hr, hptr, hleft⟩
        cases hj
        obtain ⟨b, hb, rfl⟩ := getElem?_modify_some hr
        obtain rfl : res = b := Option.some_inj.1 (hres.symm.trans hb)
        rw [if_pos rfl] at hptr hleft
        exact hreplay ⟨hread, hleft, i, res, hfind, hres, hok, hptr⟩
      · intro q _ hnone
        cases hnone
  · obtain ⟨hstate, ⟨skb, es, -, hc⟩ | ⟨skb, es, i, ack, -, hc⟩⟩ :=
      duplicateRequest_frame c p (by simpa using hread)
    · rw [hc, hstate]
      exact h.toRevoked.goto rfl rfl rfl (by decide)
    · have hkeep := h.toRevoked.setRes i (f := fun res => { res with ptr := .skb ack })
        fun _ h => (nomatch h.1)
      rw [hc, hstate]
      exact hkeep.goto rfl rfl rfl (by decide)

theorem revokedQuiet : QuietRule (RevokedLoop m) where
  settle _ hs hq h := by
    rw [hq]
    exact h.toRevoked.goto rfl rfl rfl (other_of_not_working (RespState.judged_not_working hs))
  opValid h := { h with phase := fun _ _ => trivial }
  resource hq _ _ h := by
    rw [hq]
    exact h.toRevoked.goto rfl rfl rfl (by simp)
  flush hq _ h := by
    rw [hq]
    exact h.toRevoked.goto rfl rfl rfl (by simp)

theorem revokedRule (m : ℕ) : PassRule (fun (_ : Unit) _ => ())
    (fun _ state pkt c => RevokedLoop m state pkt c ∧
      (state = .duplicateRequest → ∀ p, pkt = some p → ¬ replaysFrom c p m))
    (fun _ => RevokedLoop m) (fun _ => Revoked m) where
  getReq _ _ _ h := getReq_revoked h.1
  chkPsn _ p c h := by
    obtain ⟨nak, drop, hc⟩ := respCheckPsn_frame c p
    rw [hc]
    exact h.1.toRevoked.goto rfl rfl rfl (other_of_not_working (respCheckPsn_state c p))
  chkOpSeq _ p c h := by
    obtain ⟨drop, hc⟩ := checkOpSeq_frame c p
    rw [hc]
    refine h.1.toRevoked.goto rfl rfl rfl ?_
    rcases checkOpSeq_state c p with hs | hs
    · simp [hs]
    · exact other_of_not_working hs
  chkOpValid _ _ _ h := revokedQuiet.chkOpValid h.1
  chkResource _ _ _ h := revokedQuiet.chkResource h.1
  chkLength _ _ _ h := h.1.toRevoked.goto rfl rfl rfl (by simp)
  chkRkey _ _ _ h := checkRkey_revoked h.1
  execute _ _ _ h := execute_revoked h.1
  complete _ _ _ h := revokedQuiet.complete h.1
  readReply _ _ _ h := readReply_revoked h.1
  acknowledge _ p c h := by
    rcases acknowledge_frame c p with ⟨skb, es, -, hc⟩ | ⟨skb, es, ack, -, hc⟩
    · rw [hc]
      exact h.1.toRevoked.goto rfl rfl rfl (by simp)
    -- the resource of an atomic holds no region
    · have hkeep := h.1.toRevoked.setRes c.qp.resp.resHead
        (f := RespRes.keepAtomic ack c.qp.resp.psn) fun _ h => (nomatch h.1)
      rw [hc]
      exact hkeep.goto rfl rfl rfl (by simp)
  cleanup _ _ _ h := h.1.toRevoked.goto rfl rfl rfl (by simp)
  duplicateRequest _ p _ h := duplicateRequest_revoked h.1 (h.2 rfl p rfl)
  errPsn _ _ _ h := revokedQuiet.errPsn h.1
  errAc _ _ _ _ _ _ hclass h := revokedQuiet.errAc hclass h.1
  errD1e _ _ c h := by
    obtain ⟨drop, status, rq, srqWqe, opcode, mr, hc⟩ := doClassD1eError_frame c
    rw [hc]
    refine h.1.toRevoked.goto rfl rfl rfl ?_
    rcases doClassD1eError_state c with hs | hs | hs <;> simp [hs]
  errRnr _ _ _ h := revokedQuiet.errRnr h.1
  errRkey _ _ _ h := revokedQuiet.errRkey h.1
  errLength _ _ _ h := revokedQuiet.errLength h.1
  toError _ _ _ _ _ h := h.1.toRevoked.goto rfl rfl rfl (by simp)
  leave _ _ _ _ _ h := h.1.toRevoked
  error _ _ c h := by
    obtain ⟨req, sq, respPkts, cq, es, -, hc⟩ :=
      rxeQpError_frame { c with qp.resp.gotoError := false }
    rw [hc]
    exact ⟨h.1.dead, h.1.unread⟩
  reset _ _ _ h := ⟨h.1.dead, h.1.unread⟩

end Step

/-! ### Runs -/

variable {m : ℕ} {c : Ctx}

theorem change_revoked (sys : RespSys) {a : RespAct} {f : Ctx → Ctx} (hf : a.change = some f)
    (hok : RevokeOk m sys a) (h : Revoked m sys.ctx) :
    Revoked m (f sys.ctx) ∧ ∃ state, (f sys.ctx).qp.resp = { sys.ctx.qp.resp with state } := by
  cases a with
  | call | pass => cases hf
  | recv q | shareSrq q =>
    cases hf
    exact ⟨⟨h.dead, h.unread⟩, _, rfl⟩
  | postRecv wrs =>
    cases hf
    dsimp only
    unfold rxePostRecv
    split
    · exact ⟨h, _, rfl⟩
    · exact ⟨⟨h.dead, h.unread⟩, _, rfl⟩
  | error =>
    cases hf
    obtain ⟨req, sq, respPkts, cq, es, -, hc⟩ := rxeQpError_frame sys.ctx
    rw [hc]
    exact ⟨⟨h.dead, h.unread⟩, _, rfl⟩
  | env dev skb cq =>
    cases hf
    exact ⟨⟨hok, h.unread⟩, _, rfl⟩

open Trace in
theorem reach_revoked {sys₀ sys : RespSys} (h₀ : sys₀.Holds (RevokedLoop m) (Revoked m))
    (hreach : Reach respPass (RevokeOk m) sys₀ sys) : sys.Holds (RevokedLoop m) (Revoked m) := by
  refine (revokedRule m).reach_plain ?_ ?_ ?_ ?_ h₀ hreach
  · intro s hok h
    exact ⟨h, fun hstate p hp => hok s p rfl hstate hp⟩
  · intro c h
    unfold respEnter
    dsimp only
    split
    · exact ⟨h.dead, h.unread⟩
    · exact { dead := h.dead, unread := h.unread, phase := fun _ hp => (nomatch hp) }
  · intro s a f hf hok h
    obtain ⟨hinv, state, hresp⟩ :
        Revoked m (f s.c) ∧ ∃ state, (f s.c).qp.resp = { s.c.qp.resp with state } :=
      change_revoked _ hf hok h.toRevoked
    refine { hinv with phase := fun p hp => ?_ }
    have hphase := h.phase p hp
    unfold revokedPhase at hphase ⊢
    rw [hresp]
    exact hphase
  · intro c a f hf hok h
    exact (change_revoked (.idle c) hf hok h).1

theorem not_mem_sendRegions (h : Revoked m c) (data : List UInt8) : m ∉ sendRegions c data := by
  unfold sendRegions
  split
  · exact List.not_mem_nil
  · next wqe _ =>
    refine (copyDataWith_inv (I := fun s : (Dev × List UInt8) × List ℕ =>
      s.1.1.mem = c.dev.mem ∧ m ∉ s.2) ?_ wqe.dma data.length ⟨rfl, List.not_mem_nil⟩).2
    rintro ⟨⟨dev, rest⟩, log⟩ lkey iova bytes s' ⟨hmem, hlog⟩ hok
    unfold scatterLog at hok
    split at hok
    · cases hok
    · next s'' hpiece =>
      cases hok
      refine ⟨?_, ?_⟩
      · unfold scatterPiece rxeMemCopyIn at hpiece
        split at hpiece
        · cases hpiece
        · split at hpiece
          · cases hpiece
          · next dev' hcopy =>
            split at hcopy
            · cases hcopy
            · cases hcopy
              cases hpiece
              exact hmem
      · rw [List.mem_append, not_or]
        refine ⟨hlog, fun hin => ?_⟩
        -- a lookup does not find a region that is gone
        exact lookupMem_ne (hmem ▸ h.dead) (Option.mem_toList.1 hin) rfl

theorem not_mem_executeRegions (h : Revoked m c) (pkt : Pkt) : m ∉ executeRegions c pkt := by
  unfold executeRegions
  split
  · split
    · rw [List.mem_append, not_or]
      refine ⟨not_mem_sendRegions h pkt.grh, not_mem_sendRegions ?_ pkt.payload⟩
      obtain ⟨byte, rq, srqWqe, hc⟩ := sendDataIn_frame c pkt.grh
      rw [hc]
      exact ⟨h.dead, h.unread⟩
    · exact not_mem_sendRegions h pkt.payload
  · exact List.not_mem_nil

theorem executeAccess_revoked {pkt : Pkt} {a : RemoteAccess}
    (h : RevokedLoop m .execute (some pkt) c) (ha : executeAccess c pkt = some a) (hlen : 0 < a.len)
    (hregion : a.region = some m) : c.dev.mem m = none := by
  obtain ⟨-, ha⟩ := Option.ite_none_left_eq_some.1 ha
  split at ha
  · next hwrite =>
    obtain rfl := (checkedAccess_some ha).1
    rw [(h.phase pkt rfl hregion).1 hwrite] at hlen
    exact (Nat.lt_irrefl 0 hlen).elim
  · split at ha
    · cases ha
    · split at ha
      · next hatomic =>
        obtain rfl := (checkedAccess_some ha).1
        rw [Bool.and_eq_true, respMem, show c.qp.resp.mr = some m from hregion] at hatomic
        cases hmem : c.dev.mem m with
        | none => rfl
        | some mem =>
          have hvalid := hatomic.2
          rw [Option.bind_some, hmem] at hvalid
          exact (h.dead mem hmem (of_decide_eq_true hvalid)).elim
      · cases ha

theorem readReplyAccess_revoked {pkt : Pkt} {a : RemoteAccess}
    (h : RevokedLoop m .readReply (some pkt) c) (ha : readReplyAccess c pkt = some a)
    (hlen : 0 < a.len) : a.region ≠ some m := by
  have hinit := h.initRead
  unfold readReplyAccess at ha
  dsimp only at ha
  generalize (if c.qp.resp.res.isNone then initReadRes c pkt else c) = c₁ at hinit ha
  split at ha
  · cases ha
  · next res hres =>
    split at ha
    · obtain rfl := (checkedAccess_some ha).1
      obtain ⟨i, hi, hres⟩ := Option.bind_eq_some_iff.1 hres
      intro hregion
      have hptr := region_eq_some (r := res) hregion
      refine hinit.unread ⟨i, res, hi, hres, hptr, Nat.pos_of_ne_zero fun hzero => ?_⟩
      -- a read with nothing left reads no bytes, whatever the MTU
      have hnone : (min (s32 res.resid) (s32 c₁.qp.mtu)).toNat = 0 :=
        Int.toNat_eq_zero.2 ((min_le_left _ _).trans (by rw [hzero]; decide))
      rw [hnone] at hlen
      exact Nat.lt_irrefl 0 hlen
    · cases ha

theorem not_touched {s : RespCfg} (h : RevokedLoop m s.state s.pkt s.c) : m ∉ touched s := by
  obtain ⟨state, pkt, c⟩ := s
  unfold touched
  rw [List.mem_append, not_or]
  refine ⟨?_, ?_⟩
  · split
    · exact not_mem_executeRegions h.toRevoked _
    · exact List.not_mem_nil
  · rw [List.mem_filter, Option.mem_toList, Option.bind_eq_some_iff]
    rintro ⟨⟨a, ha, hregion⟩, hmem⟩
    obtain ⟨ha, hlen⟩ := Option.filter_eq_some_iff.1 ha
    unfold remoteAccess at ha
    dsimp only at ha h
    split at ha
    · rw [executeAccess_revoked h ha (of_decide_eq_true hlen) hregion] at hmem
      cases hmem
    · exact readReplyAccess_revoked h ha (of_decide_eq_true hlen) hregion
    · cases ha

theorem deregistered {sys : RespSys} (hfree : ¬ sys.uses m) :
    (sys.map fun c => { c with dev := rxeDeregMr c.dev m }).Holds (RevokedLoop m) (Revoked m) := by
  have hdead : ∀ dev : Dev, ∀ mem, (rxeDeregMr dev m).mem m = some mem → mem.state ≠ .valid := by
    intro dev mem hmem
    dsimp only [rxeDeregMr] at hmem
    rw [Function.update_self, Option.map_eq_some_iff] at hmem
    obtain ⟨old, -, rfl⟩ := hmem
    exact MemState.noConfusion
  cases sys with
  | idle c => exact ⟨hdead c.dev, hfree⟩
  | busy s =>
    obtain ⟨hread, huse⟩ := not_or.1 hfree
    refine { dead := hdead s.c.dev, unread := hread, phase := fun p hp => ?_ }
    unfold revokedPhase
    split
    · next hstate =>
      refine fun hmr => ⟨fun hwrite => ?_, fun hrd => ?_⟩
      · by_contra hne
        exact huse ⟨hmr, Or.inl ⟨hstate, p, hp, Or.inl ⟨hwrite, hne⟩⟩⟩
      · by_contra hne
        exact huse ⟨hmr, Or.inl ⟨hstate, p, hp, Or.inr ⟨hrd, Nat.pos_of_ne_zero hne⟩⟩⟩
    · next hstate =>
      intro hnone hmr
      by_contra hne
      exact huse ⟨hmr, Or.inr ⟨hstate, hnone, Nat.pos_of_ne_zero hne⟩⟩
    · trivial

/-- In every run after `rxe_dereg_mr`, whatever packets arrive and however calls, passes and
other activities interleave, no pass touches the region, provided that the responder was not
using it when it was deregistered and that no duplicate READ is replayed from it. -/
theorem dereg_untouched (m : ℕ) (sys₀ sys : RespSys) (s : RespCfg) (hfree : ¬ sys₀.uses m)
    (hreach : Trace.Reach respPass (RevokeOk m)
      (sys₀.map fun c => { c with dev := rxeDeregMr c.dev m }) sys)
    (hbusy : sys = .busy s) : m ∉ touched s := by
  have h := reach_revoked (deregistered hfree) hreach
  rw [hbusy] at h
  exact not_touched h

/-- The QP of the replayed READ, with the byte 7 everywhere in memory. -/
def revokeQp : Ctx := { replayQp with dev := { replayQp.dev with byte := fun _ => 7 } }

/-- Two regions, and a resource for a read of each. -/
def twoRegionQp : Ctx :=
  { replayQp with
    qp.attr.maxRdAtomic := 2
    qp.resp.resources := [{}, {}]
    dev.mem := fun i => if i = 1 then some dmaRegion
      else if i = 2 then some { dmaRegion with lkey := 0x200, rkey := 0x200 } else none }

/-- A READ of the second region, up to its answer. -/
def otherRead : List RespAct :=
  [.recv { replayRead with psn := 1, reth := ⟨8, 0x200, 4⟩ }, .call] ++ List.replicate 8 .pass

def noReplay (sys : RespSys) : RespAct → Bool
  | .pass =>
    match sys with
    | .idle _ => false
    | .busy s => s.state ≠ .duplicateRequest
  | .env _ _ _ => false
  | _ => true

theorem revokeOk_of_noReplay (sys : RespSys) (a : RespAct) (h : noReplay sys a) :
    RevokeOk m sys a := by
  cases a with
  | pass =>
    rintro s p rfl hdup
    exact absurd hdup (of_decide_eq_true h)
  | env => cases h
  | call | recv | postRecv | error | shareSrq => trivial

/-- A READ is answered from the first region, and its resource goes on referring to it.  The region
is deregistered, and a READ of the second region is served: that is the only region touched. -/
theorem dereg_untouched_read :
    ∃ c s, respRun twoRegionQp [.recv replayRead, .task 20] = some c ∧
      c.qp.resp.resources.head?.map RespRes.ptr = some (.mr 1) ∧
      Trace.Reach respPass (RevokeOk 1)
        ((RespSys.idle c).map fun c => { c with dev := rxeDeregMr c.dev 1 }) (.busy s) ∧
      touched s = [2] ∧ 1 ∉ touched s := by
  obtain ⟨c, hc⟩ : ∃ c, respRun twoRegionQp [.recv replayRead, .task 20] = some c := ⟨_, rfl⟩
  obtain ⟨s, hs⟩ : ∃ s, otherRead.foldlM
      (fun sys a => if noReplay sys a then respPass sys a else none)
      ((RespSys.idle c).map fun c => { c with dev := rxeDeregMr c.dev 1 }) = some (.busy s) := by
    cases hc
    exact ⟨_, rfl⟩
  have hfree : ¬ (RespSys.idle c).uses 1 := by
    cases hc
    rintro ⟨i, res, hi, -⟩
    exact nomatch (show (none : Option ℕ) = some i from hi)
  have hreach := Trace.Reach.start.foldlM_checked (revokeOk_of_noReplay (m := 1)) otherRead hs
  refine ⟨c, s, hc, ?_, hreach, ?_,
    dereg_untouched 1 (.idle c) (.busy s) s hfree hreach rfl⟩
  · cases hc
    rfl
  · cases hc
    cases hs
    rfl

/-- The payload of a response. -/
def respPayload : Event → Option (List UInt8)
  | .sendResp ack => some ack.payload
  | _ => none

/-- A READ is executed, the region is deregistered, and the READ arrives once more: it is
answered with the bytes of the region. -/
theorem dereg_replayed :
    ∃ c₁ c₂, respRun revokeQp [.recv replayRead, .task 20] = some c₁ ∧ c₁.qp.resp.res = none ∧
      ((rxeDeregMr c₁.dev 1).mem 1).map (·.state) = some .zombie ∧
      respRun { c₁ with dev := rxeDeregMr c₁.dev 1, out := [] } [.recv replayRead, .task 20] =
        some c₂ ∧
      c₂.out.filterMap respPayload = [[7, 7, 7, 7]] :=
  ⟨_, _, rfl, rfl, rfl, rfl, rfl⟩

end Rxe
