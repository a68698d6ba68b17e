/-
The message sequence number of the responder.

`prepare_ack_packet` puts `resp.msn` into every AETH it builds, and `execute` counts it up.
`execute` runs once for each packet and not once for each message, and the response kept for
an atomic is sent again with the MSN it had when it was built.

* `MsnEntry` — what a run shows of the MSN: the executions and the AETHs;
* `respStep_msn` — what one pass of the responder does to the MSN and to that log;
* `Expected` — a request that gets as far as `execute` is not a duplicate;
* `msn_counts_messages` — the MSN counts the messages completed exactly as long as each
  packet executed ends its message and no atomic is answered again with an old MSN, and a
  duplicate never changes it;
* `msn_counts_packets` — the answer to a send of two packets says that two messages were
  completed.
-/
import Rxe.Log
import Rxe.PassFrame

namespace Rxe

open Log Trace

variable {c c' : Ctx} {a : RespAct} {p : Pkt} {sys : RespSys}

/-! ### The log -/

/-- What an observer of the MSN sees. -/
inductive MsnEntry
  /-- a request packet was executed; `last` says whether it ends its message -/
  | done (last : Bool)
  /-- a response with an AETH was sent -/
  | aeth (msn : ℕ)
  deriving DecidableEq, Repr

def Event.msn? : Event → Option MsnEntry
  | .exec pkt _ => some (.done pkt.mask.end_)
  | .sendResp ack => if ack.mask.aeth then some (.aeth ack.aeth.msn) else none
  | _ => none

theorem msn_coarse : Coarse Event.msn? :=
  ⟨fun _ _ => rfl, rfl, fun _ _ => rfl, rfl, rfl, rfl, rfl⟩

/-- The number of messages completed: a send or a write with its last packet, a read and an
atomic with their only one. -/
def completed (log : List MsnEntry) : ℕ := log.count (.done true)

/-- The MSN of an AETH is the number of messages completed before. -/
def MsnRight (before : List MsnEntry) : MsnEntry → Prop
  | .aeth msn => msn = completed before % 2 ^ 24
  | .done _ => True

/-- `resp.msn` counts the messages completed, and so did the MSN of every AETH. -/
structure MsnTrue (c : Ctx) : Prop where
  count : c.qp.resp.msn = completed (seen Event.msn? c)
  aeths : Along MsnRight (seen Event.msn? c)

/-! ### One pass -/

/-- The kept response that `duplicate_request` sends for a packet, if it can be cloned. -/
def resent (c : Ctx) (p : Pkt) : Option Pkt :=
  if p.mask.send || p.mask.write || p.mask.read || !c.takeSkb.1 then none
  else
    match (findResource c.qp p.psn).bind (c.qp.resp.resources[·]?) with
    | some res =>
      match res.ptr with
      | .skb ack => some ack
      | _ => none
    | none => none

/-- `resp.msn` and the log. -/
def msnOf (c : Ctx) : ℕ × List MsnEntry := (c.qp.resp.msn, seen Event.msn? c)

/-- The context after an event that the log shows. -/
def Ctx.logs (c : Ctx) (msn : ℕ) (e : MsnEntry) (c' : Ctx) : Prop :=
  msnOf c' = (msn, seen Event.msn? c ++ [e])

/-- Nothing, or a response with the current MSN. -/
def Ctx.mayAck (c c' : Ctx) : Prop :=
  msnOf c' = msnOf c ∨ c.logs c.qp.resp.msn (.aeth (psnMask c.qp.resp.msn)) c'

/-- What `execute` does. -/
def ExecMsn (c : Ctx) (p : Pkt) (c' : Ctx) : Prop :=
  if (executeData c p).1 = none then c.logs (c.qp.resp.msn + 1) (.done p.mask.end_) c'
  else msnOf c' = msnOf c

/-- What `duplicate_request` does. -/
def DupMsn (c : Ctx) (p : Pkt) (c' : Ctx) : Prop :=
  match resent c p with
  | none => c.mayAck c'
  | some ack =>
    if ack.mask.aeth then c.logs c.qp.resp.msn (.aeth ack.aeth.msn) c' else msnOf c' = msnOf c

/-- What a pass does to the MSN and the log. -/
def MsnPass (s : RespCfg) (c' : Ctx) : Prop :=
  match s.state, s.pkt with
  | .execute, some p => ExecMsn s.c p c'
  | .duplicateRequest, some p => DupMsn s.c p c'
  | _, _ => s.c.mayAck c'

theorem msnOf_eq_view (c : Ctx) : msnOf c =
    ((respView c).qp.resp.msn, (respView c).out.filterMap Event.msn?) := by
  rw [respView_out, List.filterMap_filter]
  refine congrArg (Prod.mk _) (congrArg (List.filterMap · c.out) (funext fun e => ?_))
  cases e <;> rfl

theorem msnOf_of_view (h : respView c' = respView c) : msnOf c' = msnOf c := by
  rw [msnOf_eq_view, msnOf_eq_view, h]

theorem Ctx.mayAck.refl (c : Ctx) : c.mayAck c := Or.inl rfl

theorem Ctx.mayAck.of_view (h : respView c' = respView c) : c.mayAck c' :=
  Or.inl (msnOf_of_view h)

theorem msnOf_emit {e : Event} (hout : c'.out = c.out ++ [e]) :
    msnOf c' = (c'.qp.resp.msn, seen Event.msn? c ++ e.msn?.toList) := by
  unfold msnOf seen
  rw [hout, List.filterMap_append]
  cases h : e.msn? with
  | none => rw [List.filterMap_cons_none h]; rfl
  | some b => rw [List.filterMap_cons_some h]; rfl

theorem prepareAckPacket_msn {pkt ack : Pkt} {opcode : Opcode} {payload : ℤ}
    {psn syndrome : ℕ}
    (h : prepareAckPacket c pkt opcode payload psn syndrome = (some ack, c')) :
    ack.opcode = opcode ∧
      ((rxeOpcodeMask opcode).aeth → ack.aeth.msn = psnMask c.qp.resp.msn) := by
  have hqp := takeSkb_qp c
  unfold prepareAckPacket at h
  split at h
  · cases h
  · next c₁ hskb =>
    rw [hskb] at hqp
    split at h
    · cases h
    · cases h
      refine ⟨rfl, fun haeth => ?_⟩
      unfold ackPacket
      rw [if_pos haeth, hqp]

theorem Ctx.mayAck.send {d : Ctx} {ack : Pkt} (hd : msnOf d = msnOf c)
    (hmsn : c'.qp.resp.msn = d.qp.resp.msn) (hout : c'.out = d.out ++ [.sendResp ack])
    (haeth : ack.mask.aeth → ack.aeth.msn = psnMask c.qp.resp.msn) : c.mayAck c' := by
  obtain ⟨hcount, hseen⟩ := Prod.mk.inj hd
  have h := msnOf_emit hout
  rw [hmsn, hcount, hseen] at h
  unfold Event.msn? at h
  dsimp only at h
  split at h
  · next ha => exact Or.inr (by rw [Ctx.logs, h, haeth ha]; rfl)
  · exact Or.inl (by rw [h]; exact congrArg (Prod.mk _) (List.append_nil _))

theorem sendAck_msn (c : Ctx) (p : Pkt) (syndrome psn : ℕ) :
    c.mayAck (sendAck c p syndrome psn) := by
  unfold sendAck
  split
  · next h => exact .of_view (by rw [prepareAckPacket_none_zero h, takeSkb_view])
  · next ack c' h =>
    obtain ⟨hop, haeth⟩ := prepareAckPacket_msn h
    obtain ⟨skb, hskb⟩ := takeSkb_eq c
    rw [(prepareAckPacket_some h).1, hskb]
    exact .send (d := c) rfl rfl rfl fun _ => haeth rfl

theorem sendAtomicAck_msn (c : Ctx) (p : Pkt) (syndrome : ℕ) :
    c.mayAck (sendAtomicAck c p syndrome) := by
  unfold sendAtomicAck
  split
  · next h => exact .of_view (by rw [prepareAckPacket_none_zero h, takeSkb_view])
  · next ack c' h =>
    obtain ⟨hop, haeth⟩ := prepareAckPacket_msn h
    obtain ⟨skb, hskb⟩ := takeSkb_eq c
    rw [(prepareAckPacket_some h).1, hskb]
    obtain ⟨skb', hskb'⟩ := takeSkb_eq (keepAtomicAck { c with skb } ack)
    unfold sendClone
    split
    · next c₁ hclone =>
      rw [hclone] at hskb'
      rw [show c₁ = _ from hskb']
      exact Or.inl ((msnOf_of_view (respView_emit _ rfl)).trans rfl)
    · next c₁ hclone =>
      rw [hclone] at hskb'
      rw [show c₁ = _ from hskb']
      exact .send (d := c) rfl rfl rfl fun _ => haeth rfl

theorem acknowledge_msn (c : Ctx) (p : Pkt) : c.mayAck (acknowledge c p) := by
  unfold acknowledge
  split
  · exact .refl c
  · split
    · exact sendAck_msn c p _ _
    · split
      · exact sendAtomicAck_msn c p _
      · split
        · exact sendAck_msn c p _ _
        · exact .refl c

theorem readReplyRes_msn (c : Ctx) (p : Pkt) (i : ℕ) (res : RespRes) :
    c.mayAck (readReplyRes c p i res).2 := by
  unfold readReplyRes
  dsimp only
  split
  · next h =>
    refine Or.inl (msnOf_of_view (c := setRes c i RespRes.started) ?_)
    rcases prepareAckPacket_none h with h | ⟨-, h⟩ <;> rw [h]
    · exact takeSkb_view _
    · rw [respView_emit _ rfl, takeSkb_view]
  · next ack c' h =>
    obtain ⟨hop, haeth⟩ := prepareAckPacket_msn h
    rw [← hop] at haeth
    have hcopy : msnOf (copyFrom c' res) = msnOf (setRes c i RespRes.started) := by
      rw [(prepareAckPacket_some h).1]
      exact msnOf_of_view ((copyFrom_view _ _).trans (takeSkb_view _))
    split
    · exact .send (d := copyFrom c' res) hcopy rfl rfl haeth
    · exact .send (d := copyFrom c' res) hcopy rfl rfl haeth

theorem readReply_msn (c : Ctx) (p : Pkt) : c.mayAck (readReply c p).2 := by
  have hstart := readReply_start c p
  unfold readReply
  dsimp only
  generalize (if c.qp.resp.res.isNone then initReadRes c p else c) = c₁ at hstart
  obtain ⟨resources, resHead, mr, res, rfl⟩ := hstart
  split
  · exact .refl c
  · split
    · exact .refl c
    · exact readReplyRes_msn _ p _ _

theorem mask_setPsn (ack : Pkt) (psn : ℕ) : ({ ack with psn } : Pkt).mask = ack.mask := rfl

theorem duplicateRequest_msn (c : Ctx) (p : Pkt) : DupMsn c p (duplicateRequest c p).2 := by
  unfold DupMsn resent duplicateRequest
  by_cases hdata : p.mask.send || p.mask.write
  · rw [if_pos hdata, if_pos (by simp [hdata])]
    dsimp only
    split
    · exact sendAck_msn c p _ _
    · exact .refl c
  rw [if_neg hdata]
  by_cases hread : p.mask.read
  · rw [if_pos hread, if_pos (by simp [hread])]
    rcases duplicateRead_cases c p with hc | ⟨i, res, -, -, -, hc⟩ <;> rw [hc] <;> exact .refl c
  rw [if_neg hread]
  have hcase := duplicateAtomic_cases c p
  generalize duplicateAtomic c p = d at hcase
  cases hcase with
  | resent i r ack hfind hres hptr hskb =>
    rw [if_neg (by simpa [hread, hskb] using hdata), hfind]
    dsimp only [Option.bind_some]
    rw [hres]
    dsimp only
    rw [hptr]
    dsimp only
    obtain ⟨skb, htake⟩ := takeSkb_eq c
    rw [htake]
    have h : msnOf (resendAtomic { c with skb } i ack (psnSub c.qp.resp.psn 1)) =
        (c.qp.resp.msn, seen Event.msn? c ++
          (Event.sendResp { ack with psn := psnSub c.qp.resp.psn 1 }).msn?.toList) :=
      msnOf_emit rfl
    unfold Event.msn? at h
    dsimp only at h
    rw [mask_setPsn] at h
    split
    · next ha =>
      rw [if_pos ha] at h
      exact h
    · next ha =>
      rw [if_neg ha] at h
      rw [h]
      exact congrArg (Prod.mk _) (List.append_nil _)
  | dropped _ hc hfound =>
    have hkeep : c.mayAck d := by
      rcases hc with hc | hc <;> rw [hc]
      · exact .refl c
      · exact .of_view (takeSkb_view c)
    split
    · exact hkeep
    · next ack hack =>
      split at hack
      · cases hack
      · next hcan =>
        split at hack
        · next res hres =>
          obtain ⟨i, hi, hr⟩ := Option.bind_eq_some_iff.1 hres
          obtain ⟨-, -, hfail⟩ := hfound i res hi hr
          simp [hfail] at hcan
        · cases hack
  | wild i r hfind hr hptr =>
    -- a resource without a kept response has none to be resent
    split
    · exact .of_view (respView_emit c rfl)
    · next ack hack =>
      split at hack
      · cases hack
      · rw [hfind, Option.bind_some, hr] at hack
        dsimp only at hack
        split at hack
        · next hskb => exact absurd hskb (hptr _)
        · cases hack

theorem executeData_of_read (c : Ctx)
    (h : !p.mask.send && !p.mask.write && p.mask.read) : executeData c p = (none, c) := by
  simp only [Bool.and_eq_true, Bool.not_eq_eq_eq_not, Bool.not_true] at h
  obtain ⟨⟨hsend, hwrite⟩, hread⟩ := h
  unfold executeData
  rw [if_neg (by simp [hsend]), if_neg (by simp [hwrite]),
    if_neg (by simp [Pkt.mask_of_read hread])]

theorem execute_msn (c : Ctx) (p : Pkt) : ExecMsn c p (execute c p).2 := by
  have hdata := msnOf_of_view (executeData_view c p)
  unfold ExecMsn execute
  by_cases hread : !p.mask.send && !p.mask.write && p.mask.read
  · rw [executeData_of_read c hread, if_pos rfl, if_pos hread]
    have h := msnOf_emit (c := c) (e := .exec p c.qp.resp.atomicOrig)
      (show ({ c with qp.resp.msn := c.qp.resp.msn + 1 }.emit
        (.exec p c.qp.resp.atomicOrig)).out = _ from rfl)
    exact h
  · rw [if_neg hread]
    generalize executeData c p = r at hdata
    obtain ⟨_ | err, c₁⟩ := r
    · obtain ⟨hmsn, hlog⟩ := Prod.mk.inj hdata
      rw [if_pos rfl, Ctx.logs, ← hlog, ← hmsn]
      exact msnOf_emit (e := .exec p c₁.qp.resp.atomicOrig)
        (show (executeDone c₁ p).2.out = _ from rfl)
    · rw [if_neg nofun]
      exact hdata

theorem rxeQpError_msn (c : Ctx) : msnOf (rxeQpError c) = msnOf c := by
  obtain ⟨req, sq, respPkts, cq, es, -, hc⟩ := rxeQpError_frame c
  refine Prod.ext ?_ (rxeQpError_rel (seenRel msn_coarse) c)
  rw [hc]
  rfl

theorem msnRule : PassRule (fun (_ : RespCfg) s => s) (fun _ _ _ _ => True)
    (fun s _ _ c => MsnPass s c) (fun s c => MsnPass s c) where
  getReq _ pkt c _ := by
    obtain ⟨pkts, hc⟩ := getReq_frame c pkt
    rw [hc]
    exact .refl c
  chkPsn _ p c _ := by
    obtain ⟨nak, drop, hc⟩ := respCheckPsn_frame c p
    rw [hc]
    exact .refl c
  chkOpSeq _ p c _ := .of_view (checkOpSeq_view c p)
  chkOpValid _ p c _ := .of_view (checkOpValid_view c p)
  chkResource _ pkt c _ := .of_view (checkResource_view c pkt)
  chkLength _ _ c _ := .refl c
  chkRkey _ p c _ := .of_view (checkRkey_view c p)
  execute _ p c _ := execute_msn c p
  complete _ pkt c _ := .of_view (respDoComplete_view c pkt)
  readReply _ p c _ := readReply_msn c p
  acknowledge _ p c _ := acknowledge_msn c p
  cleanup _ _ c _ := .refl c
  duplicateRequest _ p c _ := duplicateRequest_msn c p
  errPsn _ p c _ := sendAck_msn c p _ _
  errAc _ state pkt c syn status hstate _ := by
    unfold MsnPass
    split
    · next h _ =>
      rw [show state = .execute from h] at hstate
      cases hstate
    · next h _ =>
      rw [show state = .duplicateRequest from h] at hstate
      cases hstate
    · exact .refl c
  errD1e _ _ c _ := by
    obtain ⟨drop, status, rq, srqWqe, opcode, mr, hc⟩ := doClassD1eError_frame c
    rw [hc]
    exact .refl c
  errRnr _ p c _ := by
    unfold respErrRnr
    split
    · exact sendAck_msn c p _ _
    · exact .refl c
  errRkey _ _ c _ := by
    obtain ⟨syn, status, err, drop, hc⟩ := respErrRkey_frame c
    rw [hc]
    exact .refl c
  errLength _ _ c _ := by
    obtain ⟨syn, status, err, drop, hc⟩ := respErrLength_frame c
    rw [hc]
    exact .refl c
  toError _ state pkt c hstate _ := by
    rcases hstate with rfl | ⟨-, rfl | rfl⟩ <;> exact .refl c
  leave _ state pkt c hstate _ := by
    rcases hstate with ⟨-, rfl | rfl⟩ | ⟨hneeds, rfl⟩
    · exact .refl c
    · exact .refl c
    · unfold MsnPass
      split
      · next hp => cases hp
      · next hp => cases hp
      · exact .refl c
  error _ _ c _ := Or.inl (rxeQpError_msn { c with qp.resp.gotoError := false })
  reset _ _ c _ := by
    exact .refl c

/-- What a pass of the responder does to the MSN and the log. -/
theorem respStep_msn (s : RespCfg) : MsnPass s (RespSys.ofPass (respStep s)).ctx := by
  have hstep := msnRule.step (g := s) (s := s) trivial
  cases hr : respStep s <;> rw [hr] at hstep <;> exact hstep

theorem change_msn {f : Ctx → Ctx} (h : a.change = some f) (c : Ctx) :
    msnOf (f c) = msnOf c := by
  rcases RespAct.change_frame h c with hc | ⟨pkts, rq, srq, dev, skb, cq, es, rfl | rfl, hc⟩ <;>
    rw [hc]
  · exact rxeQpError_msn c
  · rw [List.append_nil]
    rfl
  · exact (msnOf_emit (c := c) rfl).trans (congrArg (Prod.mk _) (List.append_nil _))

theorem respEnter_msn (c : Ctx) : msnOf (respEnter c).ctx = msnOf c := by
  unfold respEnter
  dsimp only
  split <;> rfl

/-! ### The count -/

/-- The passes that keep the MSN right: a packet executed ends its message, and a kept
response that is sent again has the current MSN. -/
def RespCfg.msnOk (s : RespCfg) : Prop :=
  match s.state, s.pkt with
  | .execute, some p => (executeData s.c p).1 = none → p.mask.end_
  | .duplicateRequest, some p =>
    ∀ ack, resent s.c p = some ack → ack.mask.aeth → ack.aeth.msn = psnMask s.c.qp.resp.msn
  | _, _ => True

def MsnOk : RespSys → RespAct → Prop
  | .busy s, .pass => s.msnOk
  | _, _ => True

namespace MsnTrue

variable {c c' : Ctx}

theorem keep (h : MsnTrue c) (heq : msnOf c' = msnOf c) : MsnTrue c' := by
  obtain ⟨hmsn, hlog⟩ := Prod.mk.inj heq
  exact ⟨by rw [hmsn, hlog]; exact h.count, by rw [hlog]; exact h.aeths⟩

theorem logs_iff (h : MsnTrue c) {msn : ℕ} {e : MsnEntry} (hlogs : c.logs msn e c') :
    MsnTrue c' ↔ msn = completed (seen Event.msn? c ++ [e]) ∧ MsnRight (seen Event.msn? c) e := by
  obtain ⟨hmsn, hlog⟩ := Prod.mk.inj hlogs
  constructor
  · rintro ⟨hcount, haeths⟩
    rw [hlog] at hcount haeths
    exact ⟨hmsn ▸ hcount, (along_concat.1 haeths).2⟩
  · rintro ⟨hcount, hright⟩
    exact ⟨by rw [hmsn, hlog]; exact hcount,
      by rw [hlog]; exact along_concat.2 ⟨h.aeths, hright⟩⟩

theorem aeth_iff (h : MsnTrue c) {msn : ℕ} (hlogs : c.logs c.qp.resp.msn (.aeth msn) c') :
    MsnTrue c' ↔ msn = psnMask c.qp.resp.msn := by
  rw [h.logs_iff hlogs, completed, List.count_append]
  exact ⟨fun hr => by rw [h.count]; exact hr.2, fun hmsn => ⟨h.count, by
    rw [h.count] at hmsn
    exact hmsn⟩⟩

theorem mayAck (h : MsnTrue c) (hmay : c.mayAck c') : MsnTrue c' :=
  hmay.elim h.keep fun hlogs => (h.aeth_iff hlogs).2 rfl

theorem exec_iff (h : MsnTrue c) (hexec : ExecMsn c p c') :
    MsnTrue c' ↔ ((executeData c p).1 = none → p.mask.end_) := by
  unfold ExecMsn at hexec
  split at hexec
  · next hnone =>
    rw [h.logs_iff hexec, completed, List.count_append, ← completed, ← h.count]
    cases hlast : p.mask.end_ with
    | true => exact ⟨fun _ _ => rfl, fun _ => ⟨rfl, trivial⟩⟩
    | false =>
      refine ⟨fun hr => absurd hr.1 ?_, fun hr => absurd (hr hnone) Bool.false_ne_true⟩
      show c.qp.resp.msn + 1 ≠ c.qp.resp.msn + 0
      omega
  · next hsome => exact ⟨fun _ hnone => absurd hnone hsome, fun _ => h.keep hexec⟩

theorem dup_iff (h : MsnTrue c) (hdup : DupMsn c p c') :
    MsnTrue c' ↔
      ∀ ack, resent c p = some ack → ack.mask.aeth → ack.aeth.msn = psnMask c.qp.resp.msn := by
  unfold DupMsn at hdup
  split at hdup
  · next hnone =>
    refine ⟨fun _ ack hack => ?_, fun _ => h.mayAck hdup⟩
    rw [hnone] at hack
    cases hack
  · next ack hack =>
    split at hdup
    · next haeth =>
      rw [h.aeth_iff hdup]
      refine ⟨fun hmsn ack' hack' _ => ?_, fun hr => hr ack hack haeth⟩
      obtain rfl := Option.some.inj (hack.symm.trans hack')
      exact hmsn
    · next hno =>
      refine ⟨fun _ ack' hack' haeth => ?_, fun _ => h.keep hdup⟩
      obtain rfl := Option.some.inj (hack.symm.trans hack')
      exact absurd haeth hno

theorem pass_iff {s : RespCfg} (h : MsnTrue s.c) (hpass : MsnPass s c') :
    MsnTrue c' ↔ s.msnOk := by
  unfold MsnPass at hpass
  unfold RespCfg.msnOk
  split at hpass
  · next p _ _ => exact h.exec_iff hpass
  · next p _ _ => exact h.dup_iff hpass
  · exact iff_of_true (h.mayAck hpass) trivial

theorem step_iff {sys' : RespSys} (h : MsnTrue sys.ctx)
    (hstep : respPass sys a = some sys') : MsnTrue sys'.ctx ↔ MsnOk sys a := by
  obtain ⟨c, rfl, rfl, rfl⟩ | ⟨s, rfl, rfl, rfl⟩ | ⟨f, hf, rfl⟩ := respPass_cases hstep
  · exact iff_of_true (h.keep (respEnter_msn c)) trivial
  · exact h.pass_iff (respStep_msn s)
  · rw [RespSys.ctx_map]
    refine iff_of_true (h.keep (change_msn hf _)) ?_
    cases a with
    | call | pass => cases hf
    | recv | postRecv | error | env | shareSrq => cases sys <;> trivial

end MsnTrue

/-! ### Duplicates -/

/-- What is known of the PSN of the request in hand on its way to `execute`. -/
def Expected (state : RespState) (pkt : Option Pkt) (c : Ctx) : Prop :=
  let expected := ∀ p ∈ pkt, psnCompare p.psn c.qp.resp.psn = 0
  match state with
  | .chkOpSeq | .chkOpValid | .chkLength | .chkRkey | .execute => expected
  -- flushed WQEs are completed whatever the packet in hand is
  | .chkResource => c.qp.resp.state = .error ∨ expected
  | .errMissingOpcodeLastD1e => False
  | _ => True

/-- An RC QP whose responder has a fresh request in hand. -/
structure ExpectedInv (state : RespState) (pkt : Option Pkt) (c : Ctx) : Prop where
  rc : c.qp.type = .rc
  psn : Expected state pkt c

variable {c : Ctx} {pkt : Option Pkt} {p : Pkt}

theorem respCheckPsn_expected (hrc : c.qp.type = .rc) :
    ExpectedInv (respCheckPsn c p).1 (some p) (respCheckPsn c p).2 := by
  unfold respCheckPsn
  dsimp only
  split
  · split
    · split <;> exact ⟨hrc, trivial⟩
    · next hpos =>
      split
      · exact ⟨hrc, trivial⟩
      · next hneg =>
        refine ⟨hrc, ?_⟩
        rintro q ⟨⟩
        show psnCompare p.psn c.qp.resp.psn = 0
        omega
  · next huc => cases hrc.symm.trans huc
  · next hne _ => exact absurd hrc hne

theorem checkOpSeq_expected (h : ExpectedInv .chkOpSeq (some p) c) :
    ExpectedInv (checkOpSeq c p).1 (some p) (checkOpSeq c p).2 := by
  unfold checkOpSeq
  rw [h.rc]
  dsimp only
  split <;> dsimp only <;> split <;> first | exact ⟨h.rc, h.psn⟩ | exact ⟨h.rc, trivial⟩

theorem checkRkey_expected (h : ExpectedInv .chkRkey (some p) c) :
    ExpectedInv (checkRkey c p).1 (some p) (checkRkey c p).2 := by
  obtain ⟨va, rkey, resid, mr, hc⟩ := checkRkey_frame c p
  rw [hc]
  rcases checkRkey_state c p with hs | ⟨-, hs | hs⟩ <;> rw [hs]
  · exact ⟨h.rc, h.psn⟩
  all_goals exact ⟨h.rc, trivial⟩

theorem execute_expected (h : ExpectedInv .execute (some p) c) :
    ExpectedInv (execute c p).1 (some p) (execute c p).2 := by
  rcases execute_cases c p with ⟨-, heq⟩ | ⟨_, _, _, _, _, _, d, rfl, ⟨err, hmem, heq⟩ | heq⟩ <;>
    rw [heq]
  · exact ⟨h.rc, trivial⟩
  · rcases hmem with rfl | rfl | rfl | rfl <;> exact ⟨h.rc, trivial⟩
  · rcases executeDone_next _ p with ⟨-, hs⟩ | ⟨-, hs | hs⟩ <;> rw [hs] <;> exact ⟨h.rc, trivial⟩

theorem readReply_expected (h : ExpectedInv .readReply (some p) c) :
    ExpectedInv (readReply c p).1 (some p) (readReply c p).2 := by
  obtain ⟨-, psn, opcode, resources, resHead, mr, res, skb, es, -, hc⟩ := readReply_frame c p
  rcases readReply_next c p with hs | hs | hs <;> rw [hs, hc] <;> exact ⟨h.rc, trivial⟩

theorem duplicateRequest_expected (h : ExpectedInv .duplicateRequest (some p) c) :
    ExpectedInv (duplicateRequest c p).1 (some p) (duplicateRequest c p).2 := by
  by_cases hread : p.mask.read
  · rw [duplicateRequest_of_read c hread]
    rcases duplicateRead_cases c p with hc | ⟨i, res, -, -, -, hc⟩ <;> rw [hc] <;>
      exact ⟨h.rc, trivial⟩
  · obtain ⟨hs, ⟨skb, es, -, hc⟩ | ⟨skb, es, i, ack, -, hc⟩⟩ :=
      duplicateRequest_frame c p (by simpa using hread) <;> rw [hs, hc] <;> exact ⟨h.rc, trivial⟩

theorem getReq_expected (h : ExpectedInv .getReq pkt c) :
    ExpectedInv (getReq c pkt).1 (getReq c pkt).2.1 (getReq c pkt).2.2 := by
  unfold getReq
  split
  · next herr =>
    split
    · exact ⟨h.rc, Or.inl herr⟩
    · exact ⟨h.rc, trivial⟩
  · split
    · exact ⟨h.rc, trivial⟩
    · split <;> exact ⟨h.rc, trivial⟩

theorem expectedQuiet : QuietRule ExpectedInv where
  settle := by
    intro _ state' _ _ _ _ hs hq h
    rw [hq]
    refine ⟨h.rc, ?_⟩
    cases state' <;> trivial
  opValid h := ⟨h.rc, Or.inr h.psn⟩
  resource hq herr _ h := by
    rw [hq]
    exact ⟨h.rc, h.psn.resolve_left herr⟩
  flush hq herr h := by
    rw [hq]
    exact ⟨h.rc, Or.inl herr⟩

theorem expectedRule :
    PassRule (fun (_ : Unit) _ => ()) (fun _ => ExpectedInv) (fun _ => ExpectedInv)
    fun _ c => c.qp.type = .rc where
  getReq _ _ _ h := getReq_expected h
  chkPsn _ _ _ h := respCheckPsn_expected h.rc
  chkOpSeq _ _ _ h := checkOpSeq_expected h
  chkOpValid _ _ _ h := expectedQuiet.chkOpValid h
  chkResource _ _ _ h := expectedQuiet.chkResource h
  chkLength _ _ _ h := ⟨h.rc, h.psn⟩
  chkRkey _ _ _ h := checkRkey_expected h
  execute _ _ _ h := execute_expected h
  complete _ _ _ h := expectedQuiet.complete h
  readReply _ _ _ h := readReply_expected h
  acknowledge _ p c h := by
    rcases acknowledge_frame c p with ⟨skb, es, -, hc⟩ | ⟨skb, es, ack, -, hc⟩ <;> rw [hc] <;>
      exact ⟨h.rc, trivial⟩
  cleanup _ _ _ h := ⟨h.rc, trivial⟩
  duplicateRequest _ _ _ h := duplicateRequest_expected h
  errPsn _ _ _ h := expectedQuiet.errPsn h
  errAc _ _ _ _ _ _ hclass h := expectedQuiet.errAc hclass h
  errD1e _ _ _ h := h.psn.elim
  errRnr _ _ _ h := expectedQuiet.errRnr h
  errRkey _ _ _ h := expectedQuiet.errRkey h
  errLength _ _ _ h := expectedQuiet.errLength h
  toError _ _ _ _ _ h := ⟨h.rc, trivial⟩
  leave _ _ _ _ _ h := h.rc
  error _ _ c h := by
    obtain ⟨req, sq, respPkts, cq, es, -, hc⟩ :=
      rxeQpError_frame { c with qp.resp.gotoError := false }
    rw [hc]
    exact h.rc
  reset _ _ _ h := h.rc

theorem ExpectedInv.change {state : RespState} {f : Ctx → Ctx}
    (h : ExpectedInv state pkt c) (hf : a.change = some f) : ExpectedInv state pkt (f c) := by
  rcases RespAct.change_frame hf c with hc | ⟨pkts, rq, srq, dev, skb, cq, es, -, hc⟩
  · obtain ⟨req, sq, respPkts, cq, es, -, herr⟩ := rxeQpError_frame c
    rw [hc, herr]
    refine ⟨h.rc, ?_⟩
    have hinv := h.psn
    cases state with
    | chkResource => exact Or.inl rfl
    | _ => exact hinv
  · rw [hc]
    exact ⟨h.rc, h.psn⟩

theorem RespSys.Holds.change {f : Ctx → Ctx}
    (h : sys.Holds ExpectedInv fun c => c.qp.type = .rc) (hf : a.change = some f) :
    (sys.map f).Holds ExpectedInv fun c => c.qp.type = .rc := by
  cases sys with
  | idle c =>
    have hdone : ExpectedInv .done none c := ⟨h, trivial⟩
    exact (hdone.change hf).rc
  | busy s => exact ExpectedInv.change (show ExpectedInv s.state s.pkt s.c from h) hf

theorem respEnter_expected (hrc : c.qp.type = .rc) :
    (respEnter c).Holds ExpectedInv fun c => c.qp.type = .rc := by
  unfold respEnter
  dsimp only
  split
  · exact hrc
  · split <;> exact ⟨hrc, trivial⟩

/-- A request that is executed and is not a duplicate. -/
def ExecutesNew (sys : RespSys) : Prop :=
  ∃ s p, sys = .busy s ∧ s.state = .execute ∧ s.pkt = some p ∧
    psnCompare p.psn s.c.qp.resp.psn = 0

theorem msn_changes {sys' : RespSys} (h : sys.Holds ExpectedInv fun c => c.qp.type = .rc)
    (hstep : respPass sys a = some sys') (hne : sys'.ctx.qp.resp.msn ≠ sys.ctx.qp.resp.msn) :
    ExecutesNew sys := by
  obtain ⟨c, rfl, rfl, rfl⟩ | ⟨s, rfl, rfl, rfl⟩ | ⟨f, hf, rfl⟩ := respPass_cases hstep
  · exact absurd (Prod.mk.inj (respEnter_msn c)).1 hne
  · have hpass := respStep_msn s
    have hmay : ∀ c', s.c.mayAck c' → c'.qp.resp.msn = s.c.qp.resp.msn := by
      rintro c' (hc | hc) <;> exact (Prod.mk.inj hc).1
    unfold MsnPass at hpass
    split at hpass
    -- in `execute` the request has the expected PSN
    · next p hstate hp =>
      have hinv : ExpectedInv s.state s.pkt s.c := h
      rw [hstate, hp] at hinv
      exact ⟨s, p, rfl, hstate, hp, hinv.psn p rfl⟩
    · unfold DupMsn at hpass
      split at hpass
      · exact absurd (hmay _ hpass) hne
      · split at hpass <;> exact absurd (Prod.mk.inj hpass).1 hne
    · exact absurd (hmay _ hpass) hne
  · rw [RespSys.ctx_map] at hne
    exact absurd (Prod.mk.inj (change_msn hf _)).1 hne

/-! ### The result -/

/-- The MSN of each AETH is the number of messages completed before, modulo `2 ^ 24`, and
`resp.msn` is that number, exactly in the runs in which each packet executed ends its message
and each kept response sent again has the current MSN.  The MSN changes only where a request
that is not a duplicate is executed. -/
theorem msn_counts_messages (run : Run respPass) (c : Ctx) (hstart : run.state 0 = .idle c)
    (hrc : c.qp.type = .rc) (hmsn : c.qp.resp.msn = 0) (hout : c.out = []) :
    ((∀ t, MsnTrue (run.state t).ctx) ↔ ∀ t a, run.act t = some a → MsnOk (run.state t) a) ∧
      ∀ t, (run.state (t + 1)).ctx.qp.resp.msn ≠ (run.state t).ctx.qp.resp.msn →
        ExecutesNew (run.state t) := by
  refine ⟨run.always_iff (Q := fun sys => MsnTrue sys.ctx) ?_ ?_, fun t hne => ?_⟩
  · rw [hstart]
    refine ⟨?_, ?_⟩
    · show c.qp.resp.msn = completed (c.out.filterMap Event.msn?)
      rw [hmsn, hout]
      rfl
    · show Along MsnRight (c.out.filterMap Event.msn?)
      rw [hout]
      exact along_nil
  · exact fun t a hact h => h.step_iff (run.taken t a hact)
  · have hinv : (run.state t).Holds ExpectedInv fun c => c.qp.type = .rc := by
      refine run.inv (I := fun sys => sys.Holds ExpectedInv fun c => c.qp.type = .rc) ?_ ?_ t
      · rw [hstart]
        exact hrc
      · intro sys a sys' h hstep
        obtain ⟨c, rfl, rfl, rfl⟩ | ⟨s, rfl, rfl, rfl⟩ | ⟨f, hf, rfl⟩ := respPass_cases hstep
        · exact respEnter_expected h
        · exact expectedRule.step (g := ()) h
        · exact h.change hf
    cases hact : run.act t with
    | none => exact absurd (by rw [run.stutter t hact]) hne
    | some a => exact msn_changes hinv (run.taken t a hact) hne

/-- An RC QP with one receive WQE and all of memory under the local key 256. -/
def msnQp : Ctx where
  qp :=
    { type := .rc, sq := ⟨[], []⟩, resp := { state := .ready }
      rq := ⟨[initRecvWqe { wrId := 9, sgList := [⟨64, 8, 256⟩] }], []⟩ }
  dev :=
    { mem := fun i =>
        if i = 1 then
          some { pd := 0, lkey := 256, rkey := 256, state := .valid, type := .dma, iova := 0,
                 length := 0, offset := 0, access := [.localWrite], pageShift := 0, pageMask := 0,
                 mapShift := 0, mapMask := 0, map := [] }
        else none }

/-- A send of one packet arrives and is answered. -/
def sendOnlyActs : List RespAct :=
  [.recv { opcode := .rcSendOnly, payload := [7, 7], ackReq := true }, .call] ++
    List.replicate 12 .pass

theorem msn_counts_messages_send :
    MsnTrue ((Run.ofActs respPass (.idle msnQp) sendOnlyActs).state 14).ctx ∧
      seen Event.msn? ((Run.ofActs respPass (.idle msnQp) sendOnlyActs).state 14).ctx =
        [.done true, .aeth 1] := by
  refine ⟨(msn_counts_messages (Run.ofActs respPass (.idle msnQp) sendOnlyActs) msnQp rfl rfl rfl
    rfl).1.2 ?_ 14, by decide⟩
  intro t a hact
  have ha := (Option.filter_eq_some_iff.1 hact).1
  match t with
  | 9 =>
    cases ha
    exact fun _ => rfl
  | 0 | 1 | 2 | 3 | 4 | 5 | 6 | 7 | 8 | 10 | 11 | 12 | 13 =>
    cases ha
    trivial
  | t + 14 => cases ha

/-- A send of two packets: after its only message the AETH says that two were completed. -/
theorem msn_counts_packets :
    seen Event.msn? ((Run.ofActs respPass (.idle msnQp)
      ([.recv { opcode := .rcSendFirst, payload := [7, 7] },
        .recv { opcode := .rcSendLast, psn := 1, payload := [7, 7], ackReq := true }, .call] ++
        List.replicate 11 .pass ++ [.call] ++ List.replicate 12 .pass)).state 27).ctx =
      [.done false, .done true, .aeth 2] := by
  decide

end Rxe
