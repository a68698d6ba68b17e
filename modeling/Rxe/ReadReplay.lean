/-
Duplicates of reads.

A duplicate READ_REQUEST is answered from the first resource whose PSN interval has its PSN.
For a read of the last `max_rd_atomic` executed reads and atomics its own resource is still
there, but the answer is the one of the first time only if that resource is found.  The
interval of a read without data is empty, so it is never found.

* `newReads_reach` — what holds when a read is answered for the first time, in every run;
* `dupRes` — the resource that a duplicate is answered from, `dup_answer` — what is sent;
* `read_replay_iff` — when a duplicate is answered as the read was;
* `read_replay_none` — a read of length 0 whose duplicate is dropped.
-/
import Rxe.ReadRecord

namespace Rxe

open Framing Trace

/-! ### New reads -/

/-- `check_rkey` has stored where the data of the request is. -/
structure Target (c : Ctx) (p : Pkt) : Prop where
  va : c.qp.resp.va = p.reth.va
  resid : c.qp.resp.resid = p.reth.len
  rkey : c.qp.resp.rkey = p.reth.rkey

/-- The request at hand is the first in the queue. -/
def AtHead (pkt : Option Pkt) (c : Ctx) : Prop := ∀ p ∈ pkt, c.qp.reqPkts.head? = some p

/-- A request is the first in the queue; for a read there are resources. -/
structure Held (pkt : Option Pkt) (c : Ctx) : Prop where
  head : AtHead pkt c
  ring : ∀ p ∈ pkt, p.mask.read → 0 < c.qp.attr.maxRdAtomic

/-- What is known of a request that is not a duplicate, up to its first answer. -/
def NewAt (state : RespState) (pkt : Option Pkt) (c : Ctx) : Prop :=
  match state with
  | .chkPsn | .chkOpSeq | .chkOpValid => AtHead pkt c
  | .chkResource => c.qp.resp.state ≠ .error → AtHead pkt c
  | .chkLength | .chkRkey => Held pkt c
  | .execute => Held pkt c ∧ ∀ p ∈ pkt, p.mask.read → Target c p
  | .readReply => c.qp.resp.res = none → ∃ p, pkt = some p ∧ Held pkt c ∧ p.mask.read ∧
      psnCompare p.psn c.qp.resp.psn = 0 ∧ Target c p
  | _ => True

structure NewInv (state : RespState) (pkt : Option Pkt) (c : Ctx) : Prop where
  ring : RingInv c
  now : NewAt state pkt c

section New

variable {c : Ctx} {p : Pkt} {pkt : Option Pkt}

theorem getReq_new (h : NewInv .getReq pkt c) :
    NewInv (getReq c pkt).1 (getReq c pkt).2.1 (getReq c pkt).2.2 := by
  unfold getReq
  split
  · next herr =>
    split
    · exact ⟨h.ring, fun hno => absurd herr hno⟩
    · exact ⟨{ h.ring with }, trivial⟩
  · split
    · exact ⟨h.ring, trivial⟩
    · next q pkts hq =>
      dsimp only
      split
      · next hres =>
        refine ⟨h.ring, fun hnone => ?_⟩
        rw [hnone] at hres
        cases hres
      · refine ⟨h.ring, ?_⟩
        rintro p ⟨⟩
        rw [hq]
        rfl

theorem respCheckPsn_new (hrc : c.qp.type = .rc) (h : NewInv .chkPsn (some p) c) :
    NewInv (respCheckPsn c p).1 (some p) (respCheckPsn c p).2 := by
  unfold respCheckPsn
  rw [hrc]
  dsimp only
  split
  · split
    · exact ⟨h.ring, trivial⟩
    · exact ⟨{ h.ring with }, trivial⟩
  · split
    · exact ⟨h.ring, trivial⟩
    · exact ⟨{ h.ring with }, h.now⟩

theorem checkOpSeq_new (h : NewInv .chkOpSeq (some p) c) :
    NewInv (checkOpSeq c p).1 (some p) (checkOpSeq c p).2 := by
  obtain ⟨drop, hc⟩ := checkOpSeq_frame c p
  have hring : RingInv (checkOpSeq c p).2 := by
    rw [hc]
    exact { h.ring with }
  have hhead : AtHead (some p) (checkOpSeq c p).2 := by
    rw [hc]
    exact h.now
  refine ⟨hring, ?_⟩
  rcases checkOpSeq_state c p with hs | hs
  · rw [hs]
    exact hhead
  · generalize (checkOpSeq c p).1 = state at hs
    cases state <;> first | exact trivial | exact hhead | cases hs

theorem checkRkey_new (h : NewInv .chkRkey (some p) c) :
    NewInv (checkRkey c p).1 (some p) (checkRkey c p).2 := by
  obtain ⟨va, rkey, resid, hset⟩ := setTarget_frame c p
  have hnow : Held (some p) c := h.now
  have htarget : p.mask.read → Target (setTarget c p) p := by
    intro hread
    unfold setTarget
    rw [hread, Bool.true_or, if_pos rfl, if_pos (Pkt.mask_of_read hread).1]
    exact ⟨rfl, rfl, rfl⟩
  rw [hset] at htarget
  rcases checkRkey_outcome c p with ⟨hnone, heq⟩ | ⟨-, ⟨state, hstate, heq⟩ | ⟨m, heq, -⟩⟩ <;>
    rw [heq]
  · refine ⟨h.ring, hnow, ?_⟩
    rintro q ⟨⟩ hread
    rw [hread] at hnone
    cases hnone
  · rw [hset]
    rcases hstate with rfl | rfl <;> exact ⟨{ h.ring with }, trivial⟩
  · rw [hset]
    refine ⟨{ h.ring with }, { hnow with }, ?_⟩
    rintro q ⟨⟩ hread
    exact { htarget hread with }

theorem execute_new (hexp : ExpectedInv .execute (some p) c) (h : NewInv .execute (some p) c) :
    NewInv (execute c p).1 (some p) (execute c p).2 := by
  obtain ⟨hheld, htarget⟩ : Held (some p) c ∧ ∀ q ∈ some p, q.mask.read → Target c q := h.now
  rcases execute_cases c p with
    ⟨hread, heq⟩ | ⟨_, _, _, _, _, _, d, rfl, ⟨err, hmem, heq⟩ | heq⟩ <;>
    rw [heq]
  · exact ⟨{ h.ring with }, fun _ => ⟨p, rfl, { hheld with }, hread, hexp.psn p rfl,
      { htarget p rfl hread with }⟩⟩
  · rcases hmem with rfl | rfl | rfl | rfl <;> exact ⟨{ h.ring with }, trivial⟩
  · rcases executeDone_next _ p with ⟨-, hs⟩ | ⟨-, hs | hs⟩ <;> rw [hs] <;>
      exact ⟨{ h.ring with }, trivial⟩

theorem duplicateRequest_new (h : NewInv .duplicateRequest (some p) c) :
    NewInv (duplicateRequest c p).1 (some p) (duplicateRequest c p).2 := by
  by_cases hread : p.mask.read
  · rw [duplicateRequest_of_read c hread]
    rcases duplicateRead_cases c p with hc | ⟨i, res, -, -, -, hc⟩ <;> rw [hc]
    · exact ⟨h.ring, trivial⟩
    · exact ⟨{ h.ring.setRes i (replayRes p) with }, nofun⟩
  · obtain ⟨hs, ⟨skb, es, -, hc⟩ | ⟨skb, es, i, ack, -, hc⟩⟩ :=
      duplicateRequest_frame c p (by simpa using hread) <;> rw [hs, hc]
    · exact ⟨{ h.ring with }, trivial⟩
    · exact ⟨{ h.ring.setRes i _ with }, trivial⟩

theorem newQuiet : QuietRule NewInv where
  settle := by
    intro _ state' _ _ _ _ hs hq h
    rw [hq]
    refine ⟨{ h.ring with }, ?_⟩
    cases state' <;> trivial
  opValid h := ⟨h.ring, fun _ => h.now⟩
  resource hq herr hread h := by
    rw [hq]
    exact ⟨{ h.ring with }, h.now herr, hread⟩
  flush hq herr h := by
    rw [hq]
    exact ⟨{ h.ring with }, fun hno => absurd herr hno⟩

theorem newRule : PassRule (fun (_ : Unit) _ => ())
    (fun _ state pkt c => ExpectedInv state pkt c ∧ NewInv state pkt c)
    (fun _ => NewInv) fun _ => RingInv where
  getReq _ _ _ h := getReq_new h.2
  chkPsn _ _ _ h := respCheckPsn_new h.1.rc h.2
  chkOpSeq _ _ _ h := checkOpSeq_new h.2
  chkOpValid _ _ _ h := newQuiet.chkOpValid h.2
  chkResource _ _ _ h := newQuiet.chkResource h.2
  chkLength _ _ _ h := ⟨h.2.ring, h.2.now⟩
  chkRkey _ _ _ h := checkRkey_new h.2
  execute _ _ _ h := execute_new h.1 h.2
  complete _ _ _ h := newQuiet.complete h.2
  readReply _ p c h := by
    refine ⟨h.2.ring.readReply p, ?_⟩
    rcases readReply_next c p with hs | hs | hs <;> rw [hs] <;> trivial
  acknowledge _ p c h := by
    rcases acknowledge_frame c p with ⟨skb, es, -, hc⟩ | ⟨skb, es, ack, -, hc⟩ <;> rw [hc]
    · exact ⟨{ h.2.ring with }, trivial⟩
    · exact ⟨{ h.2.ring.keepAtomicAck ack with }, trivial⟩
  cleanup _ _ _ h := ⟨{ h.2.ring with }, trivial⟩
  duplicateRequest _ _ _ h := duplicateRequest_new h.2
  errPsn _ _ _ h := newQuiet.errPsn h.2
  errAc _ _ _ _ _ _ hclass h := newQuiet.errAc hclass h.2
  -- an RC QP never gets to class D1E
  errD1e _ _ _ h := h.1.psn.elim
  errRnr _ _ _ h := newQuiet.errRnr h.2
  errRkey _ _ _ h := newQuiet.errRkey h.2
  errLength _ _ _ h := newQuiet.errLength h.2
  toError _ _ _ _ _ h := ⟨h.2.ring, trivial⟩
  leave _ _ _ _ _ h := h.2.ring
  error _ _ c h := by
    obtain ⟨req, sq, respPkts, cq, es, -, hc⟩ :=
      rxeQpError_frame { c with qp.resp.gotoError := false }
    rw [hc]
    exact ⟨h.2.ring.mtu, nofun, h.2.ring.ring⟩
  reset _ _ _ h := { h.2.ring with }

theorem AtHead.queue {pkts : List Pkt} {c' : Ctx} (h : AtHead pkt c)
    (hq : c'.qp.reqPkts = c.qp.reqPkts ++ pkts) : AtHead pkt c' := by
  intro p hp
  rw [hq, List.head?_append, h p hp]
  rfl

theorem change_new {state : RespState} {a : RespAct} {f : Ctx → Ctx} (hf : a.change = some f)
    (h : NewInv state pkt c) : NewInv state pkt (f c) := by
  rcases RespAct.change_frame hf c with hc | ⟨pkts, rq, srq, dev, skb, cq, es, -, hc⟩
  · obtain ⟨req, sq, respPkts, cq, es, -, herr⟩ := rxeQpError_frame c
    rw [hc, herr]
    refine ⟨⟨h.ring.mtu, nofun, h.ring.ring⟩, ?_⟩
    have hnow := h.now
    cases state with
    | chkResource => exact fun hno => absurd rfl hno
    | chkLength | chkRkey => exact { hnow with }
    | execute => exact ⟨{ hnow.1 with }, fun p hp hread => { hnow.2 p hp hread with }⟩
    | readReply =>
      intro hres
      obtain ⟨p, hp, hheld, hread, hpsn, htarget⟩ := hnow hres
      exact ⟨p, hp, { hheld with }, hread, hpsn, { htarget with }⟩
    | _ => exact hnow
  · rw [hc]
    refine ⟨{ h.ring with }, ?_⟩
    have hnow := h.now
    -- requests arrive behind the one in hand
    have hheld : ∀ {d : Ctx}, Held pkt d → d = c → Held pkt { c with
        qp.reqPkts := c.qp.reqPkts ++ pkts, qp.rq := rq, qp.srq := srq, dev, skb, cq
        out := c.out ++ es } := by
      rintro d hd rfl
      exact ⟨hd.head.queue rfl, hd.ring⟩
    cases state with
    | chkPsn | chkOpSeq | chkOpValid => exact AtHead.queue hnow rfl
    | chkResource => exact fun hno => AtHead.queue (hnow hno) rfl
    | chkLength | chkRkey => exact hheld hnow rfl
    | execute => exact ⟨hheld hnow.1 rfl, fun p hp hread => { hnow.2 p hp hread with }⟩
    | readReply =>
      intro hres
      obtain ⟨p, hp, hh, hread, hpsn, htarget⟩ := hnow hres
      exact ⟨p, hp, hheld hh rfl, hread, hpsn, { htarget with }⟩
    | _ => exact hnow

end New

/-- A request about to be answered for the first time is a read with the expected PSN whose
target is known. -/
theorem newReads_reach {c₀ : Ctx} {sys : RespSys} (h₀ : ReplyStart c₀)
    (hreach : Reach respPass (fun _ _ => True) (.idle c₀) sys) :
    sys.Holds ExpectedInv (fun c => c.qp.type = .rc) ∧ sys.Holds NewInv RingInv := by
  refine Reach.inv (I := fun sys => sys.Holds ExpectedInv (fun c => c.qp.type = .rc) ∧
    sys.Holds NewInv RingInv) ⟨h₀.rc, h₀.toRingInv⟩ ?_ hreach
  rintro sys a sys' ⟨hexp, hnew⟩ - hstep
  obtain ⟨c, rfl, rfl, rfl⟩ | ⟨s, rfl, rfl, rfl⟩ | ⟨f, hf, rfl⟩ := respPass_cases hstep
  · refine ⟨respEnter_expected hexp, ?_⟩
    have hring : RingInv c := hnew
    unfold respEnter
    dsimp only
    rw [if_neg (show ¬ c.qp.resp.state = .reset from hring.state)]
    split
    · exact { hring with }
    · exact ⟨{ hring with }, trivial⟩
  · exact ⟨expectedRule.step (g := ()) hexp, newRule.step (g := ()) ⟨hexp, hnew⟩⟩
  · refine ⟨hexp.change hf, ?_⟩
    cases sys with
    | idle c =>
      have hdone : NewInv .done none c := ⟨hnew, trivial⟩
      exact (change_new hf hdone).ring
    | busy s => exact change_new hf hnew

/-! ### The first answer -/

theorem AnswerRun.of_call {s s' : RespCfg} {c' : Ctx} (h : AnswerRun s c')
    (hcall : ∀ n r, Loop.run respStep n s = some r → ∃ n', Loop.run respStep n' s' = some r) :
    AnswerRun s' c' := by
  cases h with
  | last hrun hres =>
    obtain ⟨n', hrun'⟩ := hcall _ _ hrun
    exact .last hrun' hres
  | more hrun hres hops hidle hrest =>
    obtain ⟨n', hrun'⟩ := hcall _ _ hrun
    exact .more hrun' hres hops hidle hrest

section First

variable {c : Ctx} {p : Pkt}

theorem NewInv.starting (hinv : NewInv .readReply (some p) c) (hres : c.qp.resp.res = none) :
    Starting c p ∧ Target c p ∧ c.qp.reqPkts.head? = some p ∧
      c.qp.resp.resHead < c.qp.attr.maxRdAtomic := by
  obtain ⟨q, ⟨⟩, hheld, hread, hpsn, htarget⟩ := hinv.now hres
  obtain ⟨hlt, hle⟩ := hinv.ring.ring (hheld.ring p rfl hread)
  exact ⟨⟨hread, hpsn, hres, lt_of_lt_of_le hlt hle, htarget.resid⟩, htarget, hheld.head p rfl, hlt⟩

theorem Starting.answering (h : Starting c p) (htarget : Target c p) (hw : Working c)
    (hhead : c.qp.reqPkts.head? = some p) (hsmall : p.reth.len < 2 ^ 31) :
    Answering p true c.out (readPieces c.dev c.qp.readPtr c.qp.mtu
      (count c.qp.mtu p.reth.len) p.reth.va p.reth.len) (c.qp.readPtr.region.bind c.dev.mem)
      (initReadRes c p) := by
  obtain ⟨r₀, hserve⟩ := h.serves
  obtain ⟨head, hc⟩ := initReadRes_frame c p
  have hdev : (initReadRes c p).dev = c.dev := by rw [hc]
  refine ⟨by rw [hc]; exact { hw with }, by rw [hc]; exact hhead, hsmall, _, _, [], [], hserve, ?_,
    by rw [hdev]; rfl, by rw [initReadRes_out, List.append_nil], by simp⟩
  rw [hdev, (initReadRes_keeps c p).2.1, List.nil_append]
  show readPieces c.dev c.qp.readPtr c.qp.mtu (count c.qp.mtu c.qp.resp.resid) c.qp.resp.va
    c.qp.resp.resid = _
  rw [htarget.resid, htarget.va]

theorem first_answer (h : Starting c p) (htarget : Target c p) (hw : Working c)
    (hhead : c.qp.reqPkts.head? = some p) (hsmall : p.reth.len < 2 ^ 31) :
    (∃ c', AnswerRun ⟨.readReply, some p, c⟩ c') ∧ ∀ c', AnswerRun ⟨.readReply, some p, c⟩ c' →
      readResps c'.out = readResps c.out ++ readAnswer c.dev c.qp.readPtr c.qp.mtu p := by
  have hans := h.answering htarget hw hhead hsmall
  have hdue : RespCfg.due ⟨.readReply, some p, initReadRes c p⟩ p := Or.inl ⟨rfl, rfl⟩
  have hstep : respStep ⟨.readReply, some p, c⟩ =
      respStep ⟨.readReply, some p, initReadRes c p⟩ := by
    show Sum.inl _ = Sum.inl _
    rw [readReply_fresh p h.res]
  -- the pass that takes the resource and the one that finds it are the same
  have hcall : ∀ n, Loop.run respStep n ⟨.readReply, some p, c⟩ =
      Loop.run respStep n ⟨.readReply, some p, initReadRes c p⟩ := by
    intro n
    cases n with
    | zero => rfl
    | succ n => rw [Loop.run, Loop.run, hstep]
  constructor
  · obtain ⟨c', hrun⟩ := answerRun_exists hans hdue
    exact ⟨c', hrun.of_call fun n r hr => ⟨n, (hcall n).trans hr⟩⟩
  · intro c' hrun
    obtain ⟨es, hout, hresps, -⟩ := (answerRun_resps
      (hrun.of_call fun n r hr => ⟨n, (hcall n).symm.trans hr⟩) hans hdue).resps
    rw [hout, readResps, List.filterMap_append]
    exact congrArg (_ ++ ·) hresps

theorem Starting.recorded (h : Starting c p) (htarget : Target c p)
    (hlt : c.qp.resp.resHead < c.qp.attr.maxRdAtomic) :
    Recorded c.qp.attr.maxRdAtomic c.qp.mtu p c.qp.readPtr c.qp.resp.resHead 0
      (readReply c p).2 := by
  refine Recorded.alters ?_ ((readReply_ring c p).2 h.res)
  have htakes := initReadRes_takes c p
  obtain ⟨r₀, hserve⟩ := h.serves
  refine ⟨htakes.attr, htakes.mtu, ⟨0, le_rfl, ?_⟩, fun _ => ⟨_, hserve.resource, ?_⟩⟩
  · rw [htakes.head]
    exact advance_head (by omega) rfl (Nat.mod_eq_of_lt hlt).symm
  · exact ⟨rfl, rfl, rfl, htarget.resid, htarget.rkey, rfl⟩

end First

/-! ### The answer to a duplicate -/

/-- The responses from a region to the request `p`, with the opcodes of a stream that begins with
it or not. -/
def replayAnswer (c : Ctx) (p : Pkt) (r : RespRes) : List ReadResp :=
  numbered p.psn (framed (p.psn = r.firstPsn)
    (readPieces c.dev r.ptr c.qp.mtu (count c.qp.mtu p.reth.len) p.reth.va p.reth.len))

/-- The resource that a duplicate read is answered from: the first whose interval has its PSN, if
the request is part of the read that it was used for. -/
def dupRes (c : Ctx) (p : Pkt) : Option RespRes :=
  ((findResource c.qp p.psn).bind (c.qp.resp.resources[·]?)).filter (replayOk · p)

section Duplicate

variable {c : Ctx} {p : Pkt}

theorem duplicateRead_answer (c : Ctx) (p : Pkt) :
    (duplicateRead c p = (.cleanup, c) ∧ dupRes c p = none) ∨
      ∃ i r, c.qp.resp.resources[i]? = some r ∧ dupRes c p = some r ∧
        duplicateRead c p =
          (.readReply, { setRes c i (replayRes p) with qp.resp.res := some i }) := by
  unfold duplicateRead dupRes
  cases findResource c.qp p.psn with
  | none => exact Or.inl ⟨rfl, rfl⟩
  | some i =>
    dsimp only [Option.bind_some]
    cases hr : c.qp.resp.resources[i]? with
    | none => exact Or.inl ⟨rfl, rfl⟩
    | some r =>
      dsimp only [Option.filter_some]
      by_cases hok : replayOk r p
      · rw [if_pos hok, if_pos hok]
        exact Or.inr ⟨i, r, hr, rfl, rfl⟩
      · rw [if_neg hok, if_neg hok]
        exact Or.inl ⟨rfl, rfl⟩

theorem run_duplicate (hdup : DupStart c p) (hread : p.mask.read) (n : ℕ) :
    Loop.run respStep (n + 3) ⟨.getReq, none, c.called⟩ = Loop.run respStep n
      ⟨(duplicateRead c.called p).1, some p, (duplicateRead c.called p).2⟩ := by
  have hcall := call_duplicate hdup (show c.called = _ from rfl) n
  rw [call_eq hdup.valid hdup.ready, duplicateRequest_of_read c.called hread] at hcall
  exact hcall

theorem replay_answering {i : ℕ} {r : RespRes} (hdup : DupStart c p) (hread : p.mask.read)
    (hw : Working c) (hsmall : p.reth.len < 2 ^ 31) (hr : c.qp.resp.resources[i]? = some r) :
    Answering p (p.psn = r.firstPsn) c.out
      (readPieces c.dev r.ptr c.qp.mtu (count c.qp.mtu p.reth.len) p.reth.va p.reth.len)
      (r.region.bind c.dev.mem)
      { setRes c.called i (replayRes p) with qp.resp.res := some i } := by
  refine ⟨{ hw with }, hdup.head, hsmall, i, replayRes p r, [], [],
    ⟨hread, le_of_lt hdup.old, fun heq => absurd heq (ne_of_lt hdup.old), rfl, ?_, rfl, ?_, ?_,
      Or.inl rfl, nofun, ?_⟩, rfl, rfl, (List.append_nil _).symm, by simp⟩
  · show (c.qp.resp.resources.modify i (replayRes p))[i]? = _
    rw [List.getElem?_modify, hr]
    exact congrArg some (if_pos rfl)
  · show (if p.psn = r.firstPsn then RdatmResState.new else .replay) = .new ↔ _
    by_cases hfirst : p.psn = r.firstPsn <;> simp [hfirst]
  · show p.reth.len + 0 * c.qp.mtu = p.reth.len
    rw [Nat.zero_mul, Nat.add_zero]
  · exact (List.append_nil _).symm

/-- What the calls on a duplicate read send. -/
theorem dup_answer (hdup : DupStart c p) (hread : p.mask.read) (hw : Working c)
    (hsmall : p.reth.len < 2 ^ 31) :
    (∃ c', AnswerRun ⟨.getReq, none, c.called⟩ c') ∧
      ∀ c', AnswerRun ⟨.getReq, none, c.called⟩ c' → ∃ es, c'.out = c.out ++ es ∧
        (dupRes c p = none ∧ es = [] ∨ ∃ r, dupRes c p = some r ∧
          readResps es = replayAnswer c p r ∧ (.wild ∈ es ↔ r.region.bind c.dev.mem = none)) := by
  have hrun := run_duplicate hdup hread
  have hsame : dupRes c.called p = dupRes c p := rfl
  rcases duplicateRead_answer c.called p with ⟨hdrop, hans⟩ | ⟨i, r, hr, hans, hgo⟩
  · rw [hdrop] at hrun
    have hend := (hrun 2).trans (run_cleanup (some p) hw.noError)
    refine ⟨⟨_, .last hend hdup.noRes⟩, fun c' hc' => ⟨[], ?_, Or.inl ⟨hsame ▸ hans, rfl⟩⟩⟩
    rw [List.append_nil]
    cases hc' with
    | last hcall _ =>
      cases Loop.run_unique hcall hend
      rfl
    | more hcall hres _ _ _ =>
      cases Loop.run_unique hcall hend
      exact absurd hdup.noRes hres
  · rw [hgo] at hrun
    have hanswering := replay_answering hdup hread hw hsmall hr
    have hdue : RespCfg.due ⟨.readReply, some p,
        { setRes c.called i (replayRes p) with qp.resp.res := some i }⟩ p := Or.inl ⟨rfl, rfl⟩
    constructor
    · obtain ⟨c', hc'⟩ := answerRun_exists hanswering hdue
      exact ⟨c', hc'.of_call fun n e he => ⟨n + 3, (hrun n).trans he⟩⟩
    · intro c' hc'
      -- three passes lead from the duplicate to the replay
      have hlater := hc'.of_call fun n e he =>
        ⟨n, (hrun n).symm.trans (Loop.run_mono (Nat.le_add_right n 3) he)⟩
      obtain ⟨es, hout, hresps, hwild⟩ := (answerRun_resps hlater hanswering hdue).resps
      exact ⟨es, hout, Or.inr ⟨r, hsame ▸ hans, hresps, hwild⟩⟩

theorem readOpcode_inj {x y : Place} (h : readOpcode x = readOpcode y) : x = y := by
  cases x <;> cases y <;> first | rfl | cases h

/-- Responses with payloads of the same lengths differ in the opcode of the first at most. -/
theorem shapes_eq_iff {psn : ℕ} {new : Bool} {ps total : List (List UInt8)} (hne : total ≠ [])
    (hlen : ps.map List.length = total.map List.length) :
    (numbered psn (framed new ps)).map ReadResp.shape =
      (numbered psn (framed true total)).map ReadResp.shape ↔ new := by
  -- a shape depends on the place and the length only
  have hshape : ∀ l : List (Place × List UInt8), (numbered psn l).map ReadResp.shape =
      (l.map fun x => (x.1, x.2.length)).mapIdx fun j x =>
        (readOpcode x.1, psnMask (psn + j), x.2) := by
    intro l
    refine List.ext_getElem? fun j => ?_
    simp only [numbered, List.getElem?_map, List.getElem?_mapIdx, Option.map_map]
    rfl
  rw [hshape, hshape, ← framed_map, ← framed_map, hlen]
  constructor
  · obtain ⟨x, xs, hx⟩ := List.exists_cons_of_ne_nil (mt List.map_eq_nil_iff.1 hne)
    rw [hx, framed_cons, framed_cons, List.mapIdx_cons, List.mapIdx_cons]
    intro h
    exact Place.of_start (readOpcode_inj (congrArg Prod.fst (List.cons.inj h).1))
  · intro h
    rw [h]

/-- A duplicate is answered from a resource that begins with its PSN and refers to the region
`m`, which still exists. -/
def Replayable (c : Ctx) (p : Pkt) (m : ℕ) : Prop :=
  ∃ r, dupRes c p = some r ∧ r.firstPsn = p.psn ∧ r.ptr = .mr m ∧ (c.dev.mem m).isSome

theorem region_isSome_iff {dev : Dev} {r : RespRes} :
    ¬ r.region.bind dev.mem = none ↔ ∃ m, r.ptr = .mr m ∧ (dev.mem m).isSome := by
  unfold RespRes.region
  cases r.ptr with
  | mr m => simp [ResPtr.region, Option.isSome_iff_ne_none]
  | null => simp [ResPtr.region]
  | skb ack => simp [ResPtr.region]

end Duplicate

/-! ### Duplicates of the last reads -/

theorem readPieces_ne_nil (dev : Dev) (ptr : ResPtr) (mtu va len : ℕ) :
    readPieces dev ptr mtu (count mtu len) va len ≠ [] := by
  obtain ⟨n, hn⟩ : ∃ n, count mtu len = n + 1 := ⟨count mtu len - 1, by unfold count; omega⟩
  rw [hn]
  exact nofun

section Own

variable {mtu : ℕ} {p : Pkt} {ptr : ResPtr} {r : RespRes}

theorem ReadRecord.replayOk (h : ReadRecord mtu p ptr r) (hva : r.vaOrg = p.reth.va) :
    replayOk r p := by
  unfold Rxe.replayOk
  rw [h.length, h.rkey, hva]
  simp

theorem ReadRecord.covers_iff (h : ReadRecord mtu p ptr r) (hmtu : 0 < mtu)
    (hsize : p.reth.len + mtu ≤ 2 ^ 32) (hcount : count mtu p.reth.len ≤ 2 ^ 23) :
    r.covers p.psn ↔ 0 < p.reth.len := by
  have htype : r.type ≠ .none := by
    rw [h.type]
    exact nofun
  -- without data `last_psn` is the PSN before the first
  have hzero : (p.reth.len + mtu - 1) / mtu = 0 ↔ p.reth.len = 0 := by
    rw [Nat.div_eq_zero_iff]
    omega
  have hlast : psnCompare p.psn r.lastPsn ≤ 0 ↔ 0 < p.reth.len := by
    rw [h.lastPsn, Nat.mod_eq_of_lt (show p.reth.len + mtu - 1 < 2 ^ 32 by omega)]
    unfold count at hcount
    generalize (p.reth.len + mtu - 1) / mtu = q at hzero hcount
    unfold psnCompare
    rw [Int.bmod_eq_emod]
    push_cast
    omega
  simp only [RespRes.covers, Bool.and_eq_true, decide_eq_true_eq, h.firstPsn, psnCompare_self]
  constructor
  · rintro ⟨-, hle⟩
    exact hlast.1 hle
  · intro hpos
    exact ⟨⟨by simpa using htype, le_rfl⟩, hlast.2 hpos⟩

end Own

/-- In every run: the answer to a duplicate of a read that is one of the last `max_rd_atomic`
executed reads and atomics has the opcodes, PSNs and lengths of the answer the read got, and no
copy that is not from a region, exactly if the first resource whose PSN interval has the PSN
begins with it, accepts the request and refers to a region.  The bytes are the same if that is
the region of the read, and region and memory are unchanged.  The own resource of the read is
still there; it covers the PSN unless the read is empty, and does if it is found, its address has
not been rewritten and the region exists. -/
theorem read_replay_iff (c₀ c : Ctx) (s : RespCfg) (p : Pkt) (k : ℕ) (h₀ : ReplyStart c₀)
    (hfirst : Reach respPass (fun _ _ => True) (.idle c₀) (.busy s))
    (hstate : s.state = .readReply) (hpkt : s.pkt = some p) (hnew : s.c.qp.resp.res = none)
    (hlater : Reach (ghostPass countAccess fun k _ _ => k) (fun _ _ => True)
      (.ofPass (respStep s), 0) (.idle c, k))
    (hk : k < s.c.qp.attr.maxRdAtomic) (hsmall : p.reth.len < 2 ^ 31) (htame : c.tame)
    (hdup : DupStart c p) (hw : Working c) :
    let total := readPieces s.c.dev s.c.qp.readPtr s.c.qp.mtu (count s.c.qp.mtu p.reth.len)
      p.reth.va p.reth.len
    let answer := numbered p.psn (framed true total)
    (Working s.c → (∃ c', AnswerRun s c') ∧
      ∀ c', AnswerRun s c' → readResps c'.out = readResps s.c.out ++ answer) ∧
    (∃ c', AnswerRun ⟨.getReq, none, c.called⟩ c') ∧
    (∀ c', AnswerRun ⟨.getReq, none, c.called⟩ c' → ∃ es, c'.out = c.out ++ es ∧
      ((readResps es).map ReadResp.shape = answer.map ReadResp.shape ∧ c'.tame ↔
        ∃ m, Replayable c p m) ∧
      (∀ m mem, Replayable c p m → s.c.qp.readPtr = .mr m → s.c.dev.mem m = some mem →
        c.dev.mem m = some mem → c.dev.byte = s.c.dev.byte →
        Copied mem s.c.qp.mtu (count s.c.qp.mtu p.reth.len) p.reth.va p.reth.len →
        readResps es = answer)) ∧
    ∃ r, c.qp.resp.resources[s.c.qp.resp.resHead]? = some r ∧
      ReadRecord s.c.qp.mtu p s.c.qp.readPtr r ∧
      (p.reth.len + s.c.qp.mtu ≤ 2 ^ 32 → count s.c.qp.mtu p.reth.len ≤ 2 ^ 23 →
        (r.covers p.psn ↔ 0 < p.reth.len)) ∧
      (findResource c.qp p.psn = some s.c.qp.resp.resHead → r.vaOrg = p.reth.va →
        ∀ m, s.c.qp.readPtr = .mr m → (c.dev.mem m).isSome → Replayable c p m) := by
  obtain ⟨state, pkt, d⟩ := s
  cases hstate
  cases hpkt
  dsimp only at hnew hk ⊢
  have hinv : NewInv .readReply (some p) d := (newReads_reach h₀ hfirst).2
  obtain ⟨hstart, htarget, hhead, hlt⟩ := hinv.starting hnew
  have hrec := recorded_reach hlt (show Recorded d.qp.attr.maxRdAtomic d.qp.mtu p d.qp.readPtr
    d.qp.resp.resHead 0 (RespSys.ofPass (respStep ⟨.readReply, some p, d⟩)).ctx from
      hstart.recorded htarget hlt) hlater
  obtain ⟨r, hr, hrecord⟩ := hrec.kept hk
  obtain ⟨hexists, hall⟩ := dup_answer hdup hstart.read hw hsmall
  have hmtu : c.qp.mtu = d.qp.mtu := hrec.mtu
  refine ⟨fun hwork => first_answer hstart htarget hwork hhead hsmall, hexists, ?_, r, hr, hrecord,
    hrecord.covers_iff (hmtu ▸ hw.mtu), ?_⟩
  · intro c' hc'
    obtain ⟨es, hout, hcase⟩ := hall c' hc'
    have hsame : c'.tame ↔ .wild ∉ es := by
      rw [Ctx.tame, hout, List.mem_append, not_or]
      exact and_iff_right htame
    refine ⟨es, hout, ?_, ?_⟩
    · rw [hsame]
      rcases hcase with ⟨hnone, rfl⟩ | ⟨q, hq, hresps, hwild⟩
      -- dropped: the answer to the read has at least one response
      · constructor
        · rintro ⟨hshape, -⟩
          refine absurd hshape (Ne.symm ?_)
          obtain ⟨x, xs, hx⟩ := List.exists_cons_of_ne_nil
            (readPieces_ne_nil d.dev d.qp.readPtr d.qp.mtu p.reth.va p.reth.len)
          rw [hx, framed_cons, numbered, List.mapIdx_cons]
          exact List.cons_ne_nil _ _
        · rintro ⟨m, q, hq, -⟩
          cases hnone.symm.trans hq
      · rw [hresps, replayAnswer, hmtu, shapes_eq_iff (readPieces_ne_nil _ _ _ _ _)
          (readPieces_lengths ..), hwild, decide_eq_true_iff, region_isSome_iff]
        constructor
        · rintro ⟨hpsn, m, hptr, hsome⟩
          exact ⟨m, q, hq, hpsn.symm, hptr, hsome⟩
        · rintro ⟨m, q', hq', hpsn, hptr, hsome⟩
          cases hq.symm.trans hq'
          exact ⟨hpsn.symm, m, hptr, hsome⟩
    · rintro m mem ⟨q, hq, hpsn, hptr, -⟩ hread hmem hmem' hbyte hcopy
      obtain ⟨hnone, -⟩ | ⟨q', hq', hresps, -⟩ := hcase
      · cases hnone.symm.trans hq
      cases hq.symm.trans hq'
      rw [hresps, replayAnswer, hmtu, decide_eq_true hpsn.symm, hptr, hread,
        readPieces_unchanged hmem hmem' hbyte hcopy]
  · intro hfind hva m hread hsome
    refine ⟨r, ?_, hrecord.firstPsn, hrecord.ptr.trans hread, hsome⟩
    unfold dupRes
    rw [hfind, Option.bind_some, show c.qp.resp.resources[_]? = some r from hr,
      Option.filter_some, if_pos (hrecord.replayOk hva)]

/-- The rest of the call, and the read once more. -/
def thenRepeated : List RespAct := [.pass, .pass, .recv replayRead]

/-- Every byte of memory holds its address. -/
def countedQp : Ctx := { replayQp with dev.byte := UInt8.ofNat }

/-- A read of four bytes that is repeated at once gets the same answer. -/
theorem read_replay_same :
    ∃ s c c', Reach respPass (fun _ _ => True) (.idle countedQp) (.busy s) ∧
      Reach (ghostPass countAccess fun k _ _ => k) (fun _ _ => True) (.ofPass (respStep s), 0)
        (.idle c, 0) ∧
      AnswerRun ⟨.getReq, none, c.called⟩ c' ∧
      readResps c'.out = readResps c.out ++ [⟨.rcRdmaReadResponseOnly, 0, [8, 9, 10, 11]⟩] := by
  obtain ⟨s, hs⟩ : ∃ s, upToReply.foldlM respPass (.idle countedQp) = some (.busy s) := ⟨_, rfl⟩
  obtain ⟨c, hc⟩ : ∃ c, thenRepeated.foldlM (ghostPass countAccess fun k _ _ => k)
      (.ofPass (respStep s), 0) = some (.idle c, 0) := by
    cases hs
    exact ⟨_, rfl⟩
  have hfirst : Reach respPass (fun _ _ => True) (.idle countedQp) (.busy s) :=
    Reach.start.foldlM upToReply (fun _ _ _ => trivial) hs
  have hlater : Reach (ghostPass countAccess fun k _ _ => k) (fun _ _ => True)
      (.ofPass (respStep s), 0) (.idle c, 0) :=
    Reach.start.foldlM thenRepeated (fun _ _ _ => trivial) hc
  -- the run is closed, so that its end can be computed
  have hdup : DupStart c replayRead := by
    cases hs
    cases hc
    exact ⟨rfl, rfl, rfl, rfl, rfl, by decide⟩
  have hw : Working c := by
    cases hs
    cases hc
    exact ⟨rfl, rfl, rfl, rfl, by decide, by decide⟩
  obtain ⟨-, ⟨c', hc'⟩, hiff, r, hr, -, -, hown⟩ := read_replay_iff countedQp c s replayRead 0
    { replayQp_start with } hfirst (by cases hs; rfl) (by cases hs; rfl) (by cases hs; rfl) hlater
    (by cases hs; decide) (by decide) (by cases hs; cases hc; decide) hdup hw
  refine ⟨s, c, c', hfirst, hlater, hc', ?_⟩
  obtain ⟨es, hout, -, hbytes⟩ := hiff c' hc'
  have hsame := hbytes 1 dmaRegion (hown (by cases hs; cases hc; decide)
    (by cases hs; cases hc; cases hr; rfl) 1 (by cases hs; rfl) (by cases hs; cases hc; rfl))
    (by cases hs; rfl) (by cases hs; rfl) (by cases hs; cases hc; rfl)
    (by cases hs; cases hc; rfl) (by cases hs; exact ⟨⟨_, rfl⟩, trivial⟩)
  rw [hout, readResps, List.filterMap_append]
  refine congrArg (_ ++ ·) (hsame.trans ?_)
  cases hs
  rfl

/-- A read without data. -/
def emptyRead : Pkt :=
  { opcode := .rcRdmaReadRequest, psn := 0, ackReq := true, reth := ⟨8, 0x100, 0⟩ }

/-- The read without data is answered with one packet, and when it is repeated at once it is
dropped without an answer. -/
theorem read_replay_none :
    ((respRun replayQp [.recv emptyRead, .task 20]).map fun c => (readResps c.out, c.qp.resp.psn)) =
        some ([⟨.rcRdmaReadResponseOnly, 0, []⟩], 1) ∧
    ((respRun replayQp [.recv emptyRead, .task 20, .recv emptyRead, .task 20]).map fun c =>
      (readResps c.out, c.qp.resp.psn, c.qp.reqPkts, c.qp.resp.res)) =
        some ([⟨.rcRdmaReadResponseOnly, 0, []⟩], 1, [], none) := by decide

end Rxe
