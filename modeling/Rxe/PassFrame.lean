/-
What one pass of a task leaves alone.

Most states of the responder and of the completer work on the data of their own half of the
QP.  Only a few states touch a packet queue or the state of the QP:

* `respStep_frame` — a pass of the responder takes a request, frees it, moves the QP to the
  error state, flushes its queues, or changes only what belongs to the responder;
* `compStep_frame` — a pass of the completer takes a response, moves the QP to the error
  state, or changes only what belongs to the send side.

From this follows how long the calls take:

* `rxeCompleter_isSome`, `rxeRequester_isSome` — every call of the completer and of the
  requester returns;
* `completeAll_isSome` — so does the loop that calls the completer until it has no response.
-/
import Rxe.SendRule

namespace Rxe

/-! ### The responder -/

/-- A change of what belongs to the responder, other than its state. -/
def RespWork (c c' : Ctx) : Prop :=
  ∃ byte rq srq resp skb cq out,
    c' = { c with dev.byte := byte, qp.rq := rq, qp.srq := srq, qp.resp := resp, skb, cq, out } ∧
      resp.state = c.qp.resp.state

/-- The packet the responder works on and the context after a pass. -/
inductive RespFrame (s : RespCfg) : Option Pkt → Ctx → Prop
  | getReq (h : s.state = .getReq) :
      RespFrame s (getReq s.c s.pkt).2.1 (Rxe.getReq s.c s.pkt).2.2
  | cleanup (h : s.state = .cleanup) : RespFrame s s.pkt (cleanup s.c s.pkt)
  | error (h : s.state = .error) :
      RespFrame s s.pkt (rxeQpError { s.c with qp.resp.gotoError := false })
  | reset (h : s.state = .reset) : RespFrame s s.pkt (respReset s.c)
  | work {c : Ctx} (hget : s.state ≠ .getReq) (hclean : s.state ≠ .cleanup)
      (herr : s.state ≠ .error) (hreset : s.state ≠ .reset) (h : RespWork s.c c) :
      RespFrame s s.pkt c

theorem RespWork.refl (c : Ctx) : RespWork c c := ⟨_, _, _, _, _, _, _, rfl, rfl⟩

theorem execute_work (c : Ctx) (pkt : Pkt) : RespWork c (execute c pkt).2 := by
  rcases execute_cases c pkt with ⟨-, heq⟩ | ⟨_, _, _, _, _, _, d, rfl, ⟨err, -, heq⟩ | heq⟩ <;>
    rw [heq] <;> exact ⟨_, _, _, _, _, _, _, rfl, rfl⟩

theorem respDoComplete_work (c : Ctx) (pkt : Option Pkt) : RespWork c (respDoComplete c pkt).2 := by
  rcases respDoComplete_cases c pkt with ⟨-, heq⟩ | ⟨wqe, cq, -, heq | heq⟩ <;> rw [heq]
  · exact .refl c
  · exact ⟨_, _, _, _, _, _, _, rfl, rfl⟩
  · exact ⟨_, _, _, _, _, _, _, rfl, rfl⟩

theorem RespChange.frame {s : RespCfg} {pkt : Option Pkt} {c : Ctx} (h : RespChange s pkt c) :
    RespFrame s pkt c := by
  cases h with
  | getReq hstate => exact .getReq hstate
  | cleanup hstate => exact .cleanup hstate
  | error hstate => exact .error hstate
  | reset hstate => exact .reset hstate
  | execute hstate =>
    exact .work (by simp [hstate]) (by simp [hstate]) (by simp [hstate]) (by simp [hstate])
      (execute_work s.c _)
  | complete hstate =>
    exact .work (by simp [hstate]) (by simp [hstate]) (by simp [hstate]) (by simp [hstate])
      (respDoComplete_work s.c s.pkt)
  | work hget hclean herr hreset hwork =>
    obtain ⟨rq, srq, resp, skb, es, rfl, -, hstate, -⟩ := hwork
    exact .work hget hclean herr hreset ⟨_, _, _, _, _, _, _, rfl, hstate⟩

/-- What a pass of the responder does to the packet it works on and the context. -/
def RespFrame.After (s : RespCfg) : RespCfg ⊕ Bool × Ctx → Prop
  | .inl s' => RespFrame s s'.pkt s'.c
  | .inr e => RespFrame s s.pkt e.2

theorem respStep_frame (s : RespCfg) : RespFrame.After s (respStep s) := by
  have hstep := respStep_change s
  cases hr : respStep s <;> rw [hr] at hstep <;> exact RespChange.frame hstep

/-- The type of a QP never changes. -/
theorem RespFrame.type {s : RespCfg} {pkt : Option Pkt} {c : Ctx} (h : RespFrame s pkt c) :
    c.qp.type = s.c.qp.type := by
  cases h with
  | getReq _ =>
    obtain ⟨pkts, hc⟩ := getReq_frame s.c s.pkt
    rw [hc]
  | cleanup _ => rfl
  | error _ =>
    obtain ⟨req, sq, respPkts, cq, es, -, hc⟩ :=
      rxeQpError_frame { s.c with qp.resp.gotoError := false }
    rw [hc]
  | reset _ => rfl
  | work _ _ _ _ hwork =>
    obtain ⟨byte, rq, srq, resp, skb, cq, out, rfl, -⟩ := hwork
    rfl

theorem respPass_type {sys sys' : RespSys} {a : RespAct} (h : respPass sys a = some sys') :
    sys'.ctx.qp.type = sys.ctx.qp.type := by
  obtain ⟨c, rfl, rfl, rfl⟩ | ⟨s, rfl, rfl, rfl⟩ | ⟨f, hf, rfl⟩ := respPass_cases h
  · unfold respEnter
    dsimp only
    split <;> rfl
  · have hframe := respStep_frame s
    cases hr : respStep s <;> rw [hr] at hframe <;> exact hframe.type
  · rw [RespSys.ctx_map]
    rcases RespAct.change_frame hf sys.ctx with hc | ⟨pkts, rq, srq, dev, skb, cq, es, -, hc⟩
    · obtain ⟨req, sq, respPkts, cq, es, -, herr⟩ := rxeQpError_frame sys.ctx
      rw [hc, herr]
    · rw [hc]

open Trace in
theorem respPass_reach_type {ok : RespSys → RespAct → Prop} {sys₀ sys : RespSys}
    (h : Reach respPass ok sys₀ sys) : sys.ctx.qp.type = sys₀.ctx.qp.type :=
  Reach.inv (I := fun sys => sys.ctx.qp.type = sys₀.ctx.qp.type) rfl
    (fun _ _ _ hs _ hstep => (respPass_type hstep).trans hs) h

/-! ### The completer -/

/-- A change of what belongs to the send side. -/
def CompWork (c c' : Ctx) : Prop :=
  ∃ dev req comp sq cq out,
    c' = { c with dev, cq, out, qp.req := req, qp.comp := comp, qp.sq := sq }

/-- The packet the completer has in hand and the context after a pass. -/
inductive CompFrame (s : CompCfg) : Option Pkt → Ctx → Prop
  | take {p : Pkt} {pkts : List Pkt} (h : s.state = .getAck) (hq : s.c.qp.respPkts = p :: pkts) :
      CompFrame s (some p) { s.c with qp.respPkts := pkts, qp.comp.timeoutRetry := false }
  | error (h : s.state = .error) : CompFrame s s.pkt (rxeQpError (doComplete s.c))
  | work {c : Ctx} (herr : s.state ≠ .error) (hget : s.state = .getAck → s.c.qp.respPkts = [])
      (h : CompWork s.c c) : CompFrame s s.pkt c

namespace CompWork

variable {c c' c'' : Ctx}

theorem refl (c : Ctx) : CompWork c c := ⟨_, _, _, _, _, _, rfl⟩

theorem trans (h : CompWork c c') (h' : CompWork c' c'') : CompWork c c'' := by
  obtain ⟨dev, req, comp, sq, cq, out, rfl⟩ := h
  obtain ⟨dev', req', comp', sq', cq', out', rfl⟩ := h'
  exact ⟨_, _, _, _, _, _, rfl⟩

theorem doComplete (c : Ctx) : CompWork c (doComplete c) := by
  obtain ⟨req, sq, cq, es, -, h⟩ := doComplete_resp c
  rw [h]
  exact ⟨_, _, _, _, _, _, rfl⟩

theorem wakeWaitPsn (c : Ctx) : CompWork c (wakeWaitPsn c) := by
  unfold Rxe.wakeWaitPsn
  split <;> exact ⟨_, _, _, _, _, _, rfl⟩

theorem advanceCompPsn (c : Ctx) (pkt : Pkt) : CompWork c (advanceCompPsn c pkt) := by
  unfold Rxe.advanceCompPsn
  split <;> exact ⟨_, _, _, _, _, _, rfl⟩

theorem releaseRdAtomic (c : Ctx) (w : SendWqe) : CompWork c (releaseRdAtomic c w) := by
  unfold Rxe.releaseRdAtomic
  split
  · dsimp only
    split <;> exact ⟨_, _, _, _, _, _, rfl⟩
  · exact .refl c

theorem completeDrain (c : Ctx) : CompWork c (completeDrain c) := by
  unfold Rxe.completeDrain
  split <;> exact ⟨_, _, _, _, _, _, rfl⟩

theorem completeWqe (c : Ctx) (pkt : Option Pkt) : CompWork c (completeWqe c pkt).2 := by
  have hopcode : CompWork c { c with qp.comp.opcode := none } := ⟨_, _, _, _, _, _, rfl⟩
  refine hopcode.trans (.trans ?_ (.doComplete _))
  split
  · exact .refl _
  · exact .trans (.advanceCompPsn _ _) (.wakeWaitPsn _)

theorem checkPsn (c : Ctx) (pkt : Pkt) (w : SendWqe) : CompWork c (compCheckPsn c pkt w).2 := by
  have h := compCheckPsn_outcome c pkt w
  generalize compCheckPsn c pkt w = r at h
  cases h <;> exact ⟨_, _, _, _, _, _, rfl⟩

theorem checkAck (c : Ctx) (pkt : Pkt) (w : SendWqe) : CompWork c (checkAck c pkt w).2 := by
  have h := checkAck_outcome c pkt w
  generalize Rxe.checkAck c pkt w = r at h
  cases h with
  | seqPast =>
    have hpsn : CompWork c { c with qp.comp.psn := pkt.psn } := ⟨_, _, _, _, _, _, rfl⟩
    exact hpsn.trans (.wakeWaitPsn _)
  | unfit | read | atomic | ack | rnr | seq | nak => exact ⟨_, _, _, _, _, _, rfl⟩

theorem copyResponse (c : Ctx) (pkt : Pkt) (w : SendWqe) (data : List UInt8)
    (next : DmaInfo → CompState) : CompWork c (copyResponse c pkt w data next).2 := by
  obtain ⟨dma, dev, h | h⟩ := copyResponse_outcome c pkt w data next <;> rw [h] <;>
    exact ⟨_, _, _, _, _, _, rfl⟩

theorem doAtomic (c : Ctx) (pkt : Pkt) (w : SendWqe) : CompWork c (doAtomic c pkt w).2 := by
  exact .copyResponse c pkt w _ _

theorem updateComp (c : Ctx) (pkt : Pkt) : CompWork c (updateComp c pkt) := by
  have hopcode : CompWork c
      { c with qp.comp.opcode := if pkt.mask.end_ then none else some pkt.opcode } :=
    ⟨_, _, _, _, _, _, rfl⟩
  exact hopcode.trans (.trans (.advanceCompPsn _ _) (.wakeWaitPsn _))

theorem compExit (c : Ctx) : CompWork c (compExit c) := by
  unfold Rxe.compExit
  split <;> exact ⟨_, _, _, _, _, _, rfl⟩

theorem compErrorRetry (c : Ctx) : CompWork c (compErrorRetry c) := by
  unfold Rxe.compErrorRetry
  dsimp only
  split <;> exact ⟨_, _, _, _, _, _, rfl⟩

end CompWork

/-- What a pass of the completer does to the packet in hand and the context. -/
def CompFrame.After (s : CompCfg) : CompCfg ⊕ Bool × Ctx → Prop
  | .inl s' => CompFrame s s'.pkt s'.c
  | .inr e => CompFrame s s.pkt e.2

theorem CompFrame.After.withPktWqe {s : CompCfg} {f : Pkt → SendWqe → CompCfg ⊕ Bool × Ctx}
    (herr : s.state ≠ .error) (hget : s.state ≠ .getAck)
    (hf : ∀ p w, s.pkt = some p → CompFrame.After s (f p w)) :
    CompFrame.After s (s.withPktWqe f) := by
  unfold CompCfg.withPktWqe
  split
  · next p w hp _ => exact hf p w hp
  · exact .work herr (fun h => absurd h hget) (.refl s.c)

theorem CompFrame.After.goto {s : CompCfg} {r : CompState × Ctx} (h : CompFrame s s.pkt r.2) :
    CompFrame.After s (s.goto r) := h

theorem compStep_frame (s : CompCfg) : CompFrame.After s (compStep s) := by
  obtain ⟨state, pkt, c⟩ := s
  cases state with
  | getAck =>
    unfold compStep
    dsimp only
    split
    · next hq => exact .work nofun (fun _ => hq) (.refl c)
    · next p pkts hq => exact CompFrame.take (s := ⟨.getAck, pkt, c⟩) rfl hq
  | getWqe => exact .work nofun nofun (.refl c)
  | checkPsn =>
    exact .withPktWqe nofun nofun fun p w _ => .work nofun nofun (.checkPsn c p w)
  | checkAck =>
    exact .withPktWqe nofun nofun fun p w _ => .work nofun nofun (.checkAck c p w)
  | read => exact .withPktWqe nofun nofun fun p w _ => .work nofun nofun (.copyResponse c p w _ _)
  | atomic =>
    exact .withPktWqe nofun nofun fun p w _ => .goto (.work nofun nofun (.doAtomic c p w))
  | writeSend => exact .withPktWqe nofun nofun fun _ _ _ => .work nofun nofun (.refl c)
  | compAck =>
    exact .withPktWqe nofun nofun fun p w _ => .work nofun nofun
      (.trans (.releaseRdAtomic c w) (.trans (.completeDrain _) (.doComplete _)))
  | compWqe => exact .work nofun nofun (.completeWqe c pkt)
  | updateComp =>
    cases pkt with
    | none => exact .work nofun nofun (.refl c)
    | some p => exact .work nofun nofun (.updateComp c p)
  | done => exact .work nofun nofun (.refl c)
  | exit =>
    show CompFrame.After _ (if c.qp.comp.timeoutRetry && c.sqHead.isSome then _ else _)
    split
    · exact .work nofun nofun (.refl c)
    · exact .work nofun nofun (.compExit c)
  | errorRetry =>
    unfold compStep
    dsimp only
    split
    · exact .work nofun nofun (.refl c)
    · split
      · exact .work nofun nofun (.refl c)
      · split
        · exact .work nofun nofun (.compErrorRetry c)
        · exact .work nofun nofun ⟨_, _, _, _, _, _, rfl⟩
  | rnrRetry =>
    refine .withPktWqe nofun nofun fun p w _ => ?_
    split <;> exact .work nofun nofun ⟨_, _, _, _, _, _, rfl⟩
  | error => exact CompFrame.error (s := ⟨.error, pkt, c⟩) rfl

/-! ### What the completer has in hand -/

section Loop

variable {c : Ctx} {p : Pkt} {w : SendWqe} {s s' : CompCfg} {r : CompState × Ctx}

/-- States that work on a packet and the oldest WQE. -/
def CompState.onWqe : CompState → Bool
  | .checkPsn | .checkAck | .read | .atomic | .writeSend | .compAck | .rnrRetry => true
  | _ => false

/-- What the completer has where it stands. -/
structure Hand (state : CompState) (pkt : Option Pkt) (c : Ctx) : Prop where
  taken : pkt.isSome → state ≠ .getAck ∧ state ≠ .exit
  onWqe : state.onWqe → pkt.isSome ∧ c.sqHead.isSome
  done : state = .done → pkt.isSome

theorem Hand.ofSome {state : CompState} (h : state ≠ .getAck ∧ state ≠ .exit)
    (hw : state.onWqe → c.sqHead.isSome) : Hand state (some p) c :=
  ⟨fun _ => h, fun ho => ⟨rfl, hw ho⟩, fun _ => rfl⟩

theorem setWqe_sqHead_isSome (c : Ctx) (i : ℕ) (f : SendWqe → SendWqe) :
    (c.setWqe i f).sqHead.isSome = c.sqHead.isSome := by
  unfold Ctx.sqHead Ctx.setWqe
  rw [Bool.eq_iff_iff, List.isSome_head?, List.isSome_head?, ← List.length_pos_iff,
    ← List.length_pos_iff, RingBuf.modify_live_length]

theorem copyResponse_hand (pkt : Pkt) {w : SendWqe} (hw : c.sqHead = some w)
    (data : List UInt8) {next : DmaInfo → CompState}
    (hnext : ∀ dma, next dma = .compAck ∨ next dma = .updateComp) :
    Hand (copyResponse c pkt w data next).1 (some pkt) (copyResponse c pkt w data next).2 := by
  have hsome : ∀ dev f, ({ c with dev }.setWqe 0 f).sqHead.isSome := by
    intro dev f
    rw [setWqe_sqHead_isSome]
    exact Option.isSome_of_eq_some hw
  obtain ⟨dma, dev, h | h⟩ := copyResponse_outcome c pkt w data next <;> rw [h]
  · exact .ofSome ⟨nofun, nofun⟩ fun _ => hsome dev _
  · refine .ofSome ?_ fun _ => hsome dev _
    rcases hnext dma with hn | hn <;> rw [hn] <;> exact ⟨nofun, nofun⟩

theorem handRule : CompRule Hand fun _ => True where
  noAck _ _ _ _ := ⟨fun _ => ⟨nofun, nofun⟩, nofun, nofun⟩
  takeAck _ _ _ _ _ _ := .ofSome ⟨nofun, nofun⟩ nofun
  getWqe pkt c _ := by
    unfold getWqe
    split
    · cases pkt with
      | none => exact ⟨nofun, nofun, nofun⟩
      | some p => exact .ofSome ⟨nofun, nofun⟩ nofun
    · next w hw =>
      have hsome : c.sqHead.isSome := Option.isSome_of_eq_some hw
      cases pkt with
      | none => cases w.state <;> exact ⟨nofun, nofun, nofun⟩
      | some p => cases w.state <;> exact .ofSome ⟨nofun, nofun⟩ fun _ => hsome
  checkPsn p w c hw _ := by
    have hsome : c.sqHead.isSome := Option.isSome_of_eq_some hw
    have h := compCheckPsn_outcome c p w
    generalize compCheckPsn c p w = r at h
    cases h <;> exact .ofSome ⟨nofun, nofun⟩ fun _ => hsome
  -- `errorRetry` and `error` do not work on the WQE, so the queue does not matter there
  checkAck p w c hw _ := by
    have hsome : c.sqHead.isSome := Option.isSome_of_eq_some hw
    have h := checkAck_outcome c p w
    generalize checkAck c p w = r at h
    cases h with
    | seqPast => exact .ofSome ⟨nofun, nofun⟩ nofun
    | nak => exact .ofSome ⟨nofun, nofun⟩ nofun
    | unfit | read | atomic | ack | rnr | seq => exact .ofSome ⟨nofun, nofun⟩ fun _ => hsome
  read p w c hw _ := copyResponse_hand p hw _ fun dma => by
    split
    · exact Or.inl rfl
    · exact Or.inr rfl
  atomic p w c hw _ := by
    unfold doAtomic
    exact copyResponse_hand p hw _ fun _ => Or.inl rfl
  writeSend p w c hw _ := by
    have hsome : c.sqHead.isSome := Option.isSome_of_eq_some hw
    split <;> exact .ofSome ⟨nofun, nofun⟩ fun _ => hsome
  compAck p w c _ _ := by
    unfold completeAck
    dsimp only
    split <;> exact .ofSome ⟨nofun, nofun⟩ nofun
  compWqe _ _ _ := ⟨fun _ => ⟨nofun, nofun⟩, nofun, nofun⟩
  updateComp _ _ _ := .ofSome ⟨nofun, nofun⟩ nofun
  done _ _ _ := trivial
  timedOut _ _ _ _ _ _ := ⟨fun _ => ⟨nofun, nofun⟩, nofun, nofun⟩
  exit _ _ _ := trivial
  retry _ _ _ _ _ _ _ := trivial
  retryExc _ _ _ _ _ _ _ := ⟨fun _ => ⟨nofun, nofun⟩, nofun, nofun⟩
  rnrRetry _ _ _ _ _ _ := trivial
  rnrExc _ _ _ _ _ _ := ⟨fun _ => ⟨nofun, nofun⟩, nofun, nofun⟩
  error _ _ _ := trivial
  leave _ _ _ _ _ := trivial

/-! ### The completer returns -/

theorem doComplete_length (c : Ctx) :
    (doComplete c).qp.sq.live.length = c.qp.sq.live.length - 1 := by
  cases hw : c.sqHead with
  | none =>
    unfold doComplete
    rw [hw, List.head?_eq_none_iff.1 hw]
    rfl
  | some w =>
    obtain ⟨rest, hlive⟩ := Ctx.live_of_head hw
    rw [(doComplete_pop hw).1, RingBuf.pop_live hlive, hlive]
    rfl

theorem completeAck_length (c : Ctx) (p : Pkt) (w : SendWqe) :
    (completeAck c p w).2.qp.sq.live.length = c.qp.sq.live.length - 1 := by
  have hrelease : (releaseRdAtomic c w).qp.sq.live.length = c.qp.sq.live.length := by
    unfold releaseRdAtomic
    split
    · have hset : (c.setWqe 0 fun w => { w with hasRdAtomic := false }).qp.sq.live.length =
          c.qp.sq.live.length := RingBuf.modify_live_length _ _ _
      dsimp only
      split <;> exact hset
    · rfl
  have hdrain : (completeDrain (releaseRdAtomic c w)).qp.sq.live.length = c.qp.sq.live.length := by
    unfold completeDrain
    split <;> exact hrelease
  exact (doComplete_length _).trans (congrArg (· - 1) hdrain)

theorem completeWqe_length (c : Ctx) (pkt : Option Pkt) :
    (completeWqe c pkt).2.qp.sq.live.length = c.qp.sq.live.length - 1 := by
  unfold completeWqe
  rw [doComplete_length]
  split
  · rfl
  · rw [wakeWaitPsn_advance_sq]

theorem copyResponse_length (c : Ctx) (p : Pkt) (w : SendWqe) (data : List UInt8)
    (next : DmaInfo → CompState) :
    (copyResponse c p w data next).2.qp.sq.live.length = c.qp.sq.live.length := by
  obtain ⟨dma, dev, h | h⟩ := copyResponse_outcome c p w data next
  · rw [h]
    exact RingBuf.modify_live_length _ _ _
  · rw [h]
    exact RingBuf.modify_live_length _ _ _

theorem AckOutcome.length
    (h : AckOutcome c p w r) : r.2.qp.sq.live.length = c.qp.sq.live.length := by
  cases h with
  | unfit | read | atomic | ack | rnr | seq => rfl
  | seqPast =>
    unfold wakeWaitPsn
    split <;> rfl
  | nak => exact RingBuf.modify_live_length _ _ _

/-- How many passes a state is from the end of the loop, unless a WQE is completed. -/
def CompState.rank : CompState → ℕ
  | .getAck => 7
  | .getWqe => 6
  | .checkPsn => 5
  | .checkAck | .compWqe => 4
  | .read | .atomic | .writeSend => 3
  | .compAck | .exit => 2
  | .updateComp | .errorRetry | .rnrRetry => 1
  | .done | .error => 0

/-- The bound on the passes that are left. -/
def CompCfg.left (s : CompCfg) : ℕ := 3 * s.c.qp.sq.live.length + s.state.rank

/-- There is a WQE to complete. -/
def CompCfg.manned (s : CompCfg) : Prop := s.state = .compWqe → s.c.qp.sq.live ≠ []

theorem goto_lowers (hstep : s.goto r = .inl s')
    (hne : r.1 ≠ .compWqe) (hlen : r.2.qp.sq.live.length ≤ s.c.qp.sq.live.length)
    (hrank : r.1.rank < s.state.rank) : s'.manned ∧ s'.left < s.left := by
  cases hstep
  refine ⟨fun h => absurd h hne, ?_⟩
  show 3 * r.2.qp.sq.live.length + r.1.rank < 3 * s.c.qp.sq.live.length + s.state.rank
  omega

theorem copyResponse_lowers {data : List UInt8}
    {next : DmaInfo → CompState} (hstep : s.goto (copyResponse s.c p w data next) = .inl s')
    (hnext : ∀ dma, next dma = .compAck ∨ next dma = .updateComp) (hrank : s.state.rank = 3) :
    s'.manned ∧ s'.left < s.left := by
  refine goto_lowers hstep ?_ (copyResponse_length s.c p w data next).le ?_
  · obtain ⟨dma, dev, h | h⟩ := copyResponse_outcome s.c p w data next
    · rw [h]
      nofun
    · rw [h]
      rcases hnext dma with hn | hn <;> rw [hn] <;> nofun
  · rw [hrank]
    obtain ⟨dma, dev, h | h⟩ := copyResponse_outcome s.c p w data next
    · rw [h]
      simp [CompState.rank]
    · rw [h]
      rcases hnext dma with hn | hn <;> rw [hn] <;> simp [CompState.rank]

theorem compStep_lowers (hs : s.manned) (hstep : compStep s = .inl s') :
    s'.manned ∧ s'.left < s.left := by
  obtain ⟨state, pkt, c⟩ := s
  have hmanned : ∀ w, c.sqHead = some w → c.qp.sq.live ≠ [] := fun w hw =>
    List.ne_nil_of_mem (List.mem_of_head? hw)
  cases state with
  | getAck =>
    unfold compStep at hstep
    dsimp only at hstep
    split at hstep
    · exact goto_lowers hstep nofun le_rfl (by simp [CompState.rank])
    · cases hstep
      exact ⟨nofun, Nat.lt_succ_self _⟩
  | getWqe =>
    have hstep' : CompCfg.goto ⟨.getWqe, pkt, c⟩ (getWqe c pkt, c) = .inl s' := hstep
    have hout := getWqe_outcome c pkt
    generalize getWqe c pkt = state at hout hstep'
    cases hout with
    | idle | unasked | failed | busy =>
      exact goto_lowers hstep' nofun le_rfl (by simp [CompState.rank])
    -- the states on the way to `comp_wqe` have a head to complete
    | done hw =>
      cases hstep'
      refine ⟨fun _ => hmanned _ hw, ?_⟩
      show 3 * c.qp.sq.live.length + 4 < 3 * c.qp.sq.live.length + 6
      omega
  | checkPsn =>
    obtain ⟨p, w, -, hw, hf⟩ := withPktWqe_inl hstep
    have hout := compCheckPsn_outcome c p w
    generalize compCheckPsn c p w = r at hout hf
    cases hout with
    | implied =>
      cases hf
      refine ⟨fun _ => hmanned _ hw, ?_⟩
      show 3 * c.qp.sq.live.length + 4 < 3 * c.qp.sq.live.length + 5
      omega
    | lost | early | again | old | skipped | current =>
      exact goto_lowers hf nofun le_rfl (by simp [CompState.rank])
  | checkAck =>
    obtain ⟨p, w, -, -, hf⟩ := withPktWqe_inl hstep
    have hout := checkAck_outcome c p w
    have hlen := hout.length
    generalize checkAck c p w = r at hout hf hlen
    cases hout <;> exact goto_lowers hf nofun hlen.le (by simp [CompState.rank])
  | read =>
    obtain ⟨p, w, -, -, hf⟩ := withPktWqe_inl hstep
    refine copyResponse_lowers hf (fun dma => ?_) rfl
    split
    · exact Or.inl rfl
    · exact Or.inr rfl
  | atomic =>
    obtain ⟨p, w, -, -, hf⟩ := withPktWqe_inl hstep
    generalize u64Bytes p.atmack = data at hf
    exact copyResponse_lowers hf (fun _ => Or.inl rfl) rfl
  | writeSend =>
    obtain ⟨p, w, -, -, hf⟩ := withPktWqe_inl hstep
    split at hf
    · exact goto_lowers hf nofun le_rfl (by simp [CompState.rank])
    · exact goto_lowers hf nofun le_rfl (by simp [CompState.rank])
  | compAck =>
    obtain ⟨p, w, -, -, hf⟩ := withPktWqe_inl hstep
    have hlen := completeAck_length c p w
    have hstate := completeAck_state c p w
    generalize completeAck c p w = r at hf hlen hstate
    obtain ⟨state, c₁⟩ := r
    have hle : c₁.qp.sq.live.length ≤ c.qp.sq.live.length := hlen.le.trans (Nat.sub_le _ _)
    rcases hstate with h | h
    · cases h
      exact goto_lowers hf nofun hle (by simp [CompState.rank])
    · cases h
      exact goto_lowers hf nofun hle (by simp [CompState.rank])
  -- only here does the rank grow, and the queue is one WQE shorter
  | compWqe =>
    have hlen := completeWqe_length c pkt
    have hpos : 0 < c.qp.sq.live.length := List.length_pos_iff.2 (hs rfl)
    cases hstep
    refine ⟨nofun, ?_⟩
    show 3 * (completeWqe c pkt).2.qp.sq.live.length + 6 < 3 * c.qp.sq.live.length + 4
    omega
  | updateComp =>
    cases pkt with
    | none => cases hstep
    | some p =>
      have hsq := wakeWaitPsn_advance_sq
        { c with qp.comp.opcode := if p.mask.end_ then none else some p.opcode } p
      refine goto_lowers hstep nofun (Nat.le_of_eq ?_) (by simp [CompState.rank])
      exact congrArg (fun q : RingBuf SendWqe => q.live.length) hsq
  | done => cases hstep
  | exit =>
    unfold compStep at hstep
    dsimp only at hstep
    split at hstep
    · exact goto_lowers hstep nofun le_rfl (by simp [CompState.rank])
    · cases hstep
  | errorRetry =>
    obtain ⟨w, -, rfl⟩ := errorRetry_inl hstep
    exact goto_lowers (r := (.error, _)) rfl nofun (RingBuf.modify_live_length _ _ _).le
      (by simp [CompState.rank])
  | rnrRetry =>
    obtain ⟨w, -, rfl⟩ := rnrRetry_inl hstep
    exact goto_lowers (r := (.error, _)) rfl nofun (RingBuf.modify_live_length _ _ _).le
      (by simp [CompState.rank])
  | error => cases hstep

theorem rxeCompleter_isSome (c : Ctx) : (rxeCompleter c).isSome := by
  unfold rxeCompleter
  split
  · rfl
  · split
    · rfl
    · split
      · rfl
      · dsimp only
        split
        · rfl
        · refine Loop.run_isSome (I := CompCfg.manned) CompCfg.left
            (fun s s' hs hstep => compStep_lowers hs hstep) nofun ?_
          exact Nat.lt_succ_self _

theorem compStep_again {c' : Ctx} (hstep : compStep s = .inr (true, c')) :
    s.state = .done ∧ c' = s.c := by
  obtain ⟨state, pkt, c⟩ := s
  cases state with
  | done =>
    cases hstep
    exact ⟨rfl, rfl⟩
  | getWqe | compWqe | error => cases hstep
  | updateComp => cases pkt <;> cases hstep
  | getAck | exit | errorRetry =>
    unfold compStep at hstep
    dsimp only at hstep
    repeat' split at hstep
    all_goals cases hstep
  | checkPsn | checkAck | read | atomic | writeSend | compAck | rnrRetry =>
    unfold compStep CompCfg.withPktWqe at hstep
    dsimp only at hstep
    repeat' split at hstep
    all_goals cases hstep

theorem rxeCompleter_again {c' : Ctx} (h : rxeCompleter c = some (true, c')) :
    c'.qp.respPkts.length < c.qp.respPkts.length := by
  obtain ⟨-, hr⟩ | ⟨-, hr⟩ | ⟨-, -, hr⟩ | ⟨-, -, -, -, hrun⟩ := rxeCompleter_cases h
  · cases hr
  · cases hr
  · cases hr
  -- the response in hand and those in the queue are as many as there were in the queue
  let I (s : CompCfg) : Prop := Hand s.state s.pkt s.c ∧
    s.c.qp.respPkts.length + s.pkt.toList.length = c.qp.respPkts.length
  have hstart : I ⟨.getAck, none, compEnter c⟩ := ⟨⟨nofun, nofun, nofun⟩, rfl⟩
  refine Loop.run_inv (I := I)
    (Q := fun r => r.1 = true → r.2.qp.respPkts.length < c.qp.respPkts.length) ?_ ?_ hstart hrun rfl
  · rintro ⟨state, pkt, c₁⟩ ⟨state', pkt', c₂⟩ ⟨hhand, hcount⟩ hstep
    have hnext := handRule.step hhand
    have hframe := compStep_frame ⟨state, pkt, c₁⟩
    rw [hstep] at hnext hframe
    refine ⟨hnext, ?_⟩
    change CompFrame _ pkt' c₂ at hframe
    cases hframe with
    | take hget hq =>
      cases hget
      cases pkt with
      | none =>
        change c₁.qp.respPkts = _ at hq
        rw [← hcount, hq]
        rfl
      | some p => exact absurd rfl (hhand.taken rfl).1
    | error herr =>
      cases herr
      cases hstep
    | work _ _ hwork =>
      obtain ⟨dev, req, comp, sq, cq, out, rfl⟩ := hwork
      exact hcount
  · rintro s ⟨again, c₁⟩ ⟨hhand, hcount⟩ hstep (rfl : again = true)
    obtain ⟨hdone, rfl⟩ := compStep_again hstep
    obtain ⟨p, hp⟩ := Option.isSome_iff_exists.1 (hhand.done hdone)
    rw [hp] at hcount
    exact Nat.lt_of_succ_le hcount.le

/-- The loop around the completer needs a call for each response, and one more. -/
theorem completeAll_isSome {n : ℕ} : ∀ {c : Ctx}, c.qp.respPkts.length < n →
    (completeAll n c).isSome := by
  induction n with
  | zero => exact fun h => absurd h (Nat.not_lt_zero _)
  | succ n ih =>
    intro c hn
    obtain ⟨⟨again, c'⟩, hcall⟩ := Option.isSome_iff_exists.1 (rxeCompleter_isSome c)
    unfold completeAll
    rw [hcall]
    cases again with
    | false => rfl
    | true => exact ih (Nat.lt_of_lt_of_le (rxeCompleter_again hcall) (Nat.le_of_lt_succ hn))

theorem reqComplete_isSome (c : Ctx) : (reqComplete c).isSome := by
  unfold reqComplete
  split
  · rfl
  · rw [Option.isSome_map]
    exact completeAll_isSome (by omega)

/-- Every call of the requester returns. -/
theorem rxeRequester_isSome (c : Ctx) : (rxeRequester c).isSome := by
  have hsend : ∀ c w opcode payload, (reqSend c w opcode payload).isSome := by
    intro c w opcode payload
    unfold reqSend
    split
    · rfl
    · split
      · rw [Option.isSome_map]
        exact rxeCompleter_isSome _
      · dsimp only
        split
        · exact reqComplete_isSome _
        · rfl
  have hbuild : ∀ c w opcode, (reqBuild c w opcode).isSome := by
    intro c w opcode
    unfold reqBuild
    split
    · rfl
    · dsimp only
      generalize (if (rxeOpcodeMask opcode).writeOrSend then s32 w.dma.resid else 0) = payload
      split
      · split
        · exact reqComplete_isSome _
        · exact hsend _ _ _ _
      · exact hsend _ _ _ _
  have hnext : ∀ c, (reqNext c).isSome := by
    intro c
    unfold reqNext
    split
    · rfl
    · split
      · rfl
      · split
        · rfl
        · split
          · rfl
          · exact hbuild _ _ _
  unfold rxeRequester
  split
  · rfl
  · split
    · rfl
    · split
      · exact hnext _
      · exact hnext c

theorem rxeQpDrain_isSome (c : Ctx) : (rxeQpDrain c).isSome := by
  unfold rxeQpDrain
  split
  · rfl
  · dsimp only
    split
    · rfl
    · rw [Option.isSome_map]
      exact completeAll_isSome (by dsimp only; omega)

end Loop

end Rxe
