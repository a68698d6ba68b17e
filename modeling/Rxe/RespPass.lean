/-
The responder pass by pass.

`RespSys` is a QP whose responder is idle or in the middle of a call; between any two
passes of its loop packets arrive, receive WQEs are posted, the QP is moved to the error
state by another task, and the device changes (`respPass`).  A call of `rxe_responder`
is a sequence of such passes (`rxeResponder_reach`).

`PassRule` collects what has to be shown of an invariant of the loop, one obligation for
each kind of pass; the invariant may speak about a ghost value that the passes update.

The `_frame` lemmas say for each function of the responder which fields it writes, and
`respStep_change` what a whole pass can do.  An event is silent if it is neither an execution
nor a receive completion.
-/
import Rxe.RespView
import Rxe.Trace

namespace Rxe

/-! ### The system -/

/-- A QP with its responder. -/
inductive RespSys
  /-- `rxe_responder` is not running -/
  | idle (c : Ctx)
  /-- `rxe_responder` is about to make a pass -/
  | busy (s : RespCfg)

/-- What can happen between two passes. -/
inductive RespAct
  /-- the task calls `rxe_responder` -/
  | call
  /-- one pass through the loop -/
  | pass
  /-- a request arrives -/
  | recv (pkt : Pkt)
  | postRecv (wrs : List RecvWr)
  /-- another task moves the QP to the error state -/
  | error
  /-- memory, regions, the allocator and the CQs change -/
  | env (dev : Dev) (skb cq : List Bool)
  /-- the SRQ is changed by its other users -/
  | shareSrq (srq : Srq)

namespace RespSys

def ctx : RespSys → Ctx
  | .idle c => c
  | .busy s => s.c

/-- Change the context, whether a call is in progress or not. -/
def map (f : Ctx → Ctx) : RespSys → RespSys
  | .idle c => .idle (f c)
  | .busy s => .busy { s with c := f s.c }

@[simp] theorem ctx_map (f : Ctx → Ctx) (sys : RespSys) : (sys.map f).ctx = f sys.ctx := by
  cases sys <;> rfl

end RespSys

/-- The start of `rxe_responder`: the first pass, unless the QP is not valid. -/
def respEnter (c : Ctx) : RespSys :=
  let c := { c with qp.resp.aethSyndrome := aethAckUnlimited }
  if c.qp.valid = false then .idle c
  else .busy ⟨if c.qp.resp.state = .reset then .reset else .getReq, none, c⟩

/-- The state after a pass. -/
def RespSys.ofPass : RespCfg ⊕ Bool × Ctx → RespSys
  | .inl s => .busy s
  | .inr r => .idle r.2

/-- What happens to the context while the responder stands still. -/
def RespAct.change : RespAct → Option (Ctx → Ctx)
  | .call | .pass => none
  | .recv pkt => some (rxeRespQueuePkt · pkt)
  | .postRecv wrs => some fun c => (rxePostRecv c wrs).2
  | .error => some rxeQpError
  | .env dev skb cq => some fun c => { c with dev, skb, cq }
  | .shareSrq srq => some fun c => { c with qp.srq := c.qp.srq.map fun _ => srq }

def respPass : RespSys → RespAct → Option RespSys
  | .idle c, .call => some (respEnter c)
  | .busy s, .pass => some (.ofPass (respStep s))
  | sys, a => a.change.map sys.map

variable {a : RespAct} (c : Ctx) (pkt p : Pkt)

theorem respPass_cases {sys sys' : RespSys} (h : respPass sys a = some sys') :
    (∃ c, sys = .idle c ∧ a = .call ∧ sys' = respEnter c) ∨
      (∃ s, sys = .busy s ∧ a = .pass ∧ sys' = .ofPass (respStep s)) ∨
      ∃ f, a.change = some f ∧ sys' = sys.map f := by
  cases sys with
  | idle c =>
    cases a with
    | call =>
      cases h
      exact Or.inl ⟨c, rfl, rfl, rfl⟩
    | pass => cases h
    | recv | postRecv | error | env | shareSrq =>
      cases h
      exact Or.inr (Or.inr ⟨_, rfl, rfl⟩)
  | busy s =>
    cases a with
    | call => cases h
    | pass =>
      cases h
      exact Or.inr (Or.inl ⟨s, rfl, rfl, rfl⟩)
    | recv | postRecv | error | env | shareSrq =>
      cases h
      exact Or.inr (Or.inr ⟨_, rfl, rfl⟩)

open Trace in
/-- A call of `rxe_responder` is a run of passes. -/
theorem rxeResponder_reach {ok : RespSys → RespAct → Prop} {fuel : ℕ} {c : Ctx} {r : Bool × Ctx}
    {sys₀ : RespSys} (hcall : ok (.idle c) .call) (hpass : ∀ s, ok (.busy s) .pass)
    (h₀ : Reach respPass ok sys₀ (.idle c)) (h : rxeResponder fuel c = some r) :
    Reach respPass ok sys₀ (.idle r.2) := by
  have henter : Reach respPass ok sys₀ (respEnter c) := h₀.next hcall rfl
  unfold rxeResponder at h
  unfold respEnter at henter
  dsimp only at h henter
  split at h
  · next hvalid =>
    rw [if_pos hvalid] at henter
    cases h
    exact henter
  · next hvalid =>
    rw [if_neg hvalid] at henter
    refine Loop.run_inv (I := fun s => Reach respPass ok sys₀ (.busy s))
      (Q := fun r => Reach respPass ok sys₀ (.idle r.2)) ?_ ?_ henter h
    · intro s s' hs hstep
      exact hs.next (hpass s) (by rw [respPass, hstep]; rfl)
    · intro s r hs hstep
      exact hs.next (hpass s) (by rw [respPass, hstep]; rfl)

/-! ### Invariants of the loop -/

/-- The error states of classes A and C, with what they report. -/
def classAc : RespState → Option (ℕ × WcStatus)
  | .errTooManyRdmaAtmReq | .errMissingOpcodeFirst | .errMissingOpcodeLastC
  | .errUnsupportedOpcode | .errMisalignedAtomic => some (aethNakInvalidReq, .remInvReqErr)
  | .errMalformedWqe => some (aethNakRemOpErr, .locQpOpErr)
  | _ => none

/-- States that work on a packet. -/
def RespState.needsPkt : RespState → Bool
  | .chkPsn | .chkOpSeq | .chkOpValid | .chkRkey | .execute | .readReply | .acknowledge
  | .duplicateRequest | .errPsnOutOfSeq | .errRnr => true
  | _ => false

section PassRule

variable {G : Type}

/-- A pass in a state with `A` leads to one with `P`, or leaves `Q` between two calls; `upd` is
the change of the ghost value in a pass. -/
structure PassRule (upd : G → RespCfg → G) (A P : G → RespState → Option Pkt → Ctx → Prop)
    (Q : G → Ctx → Prop) : Prop where
  getReq : ∀ g pkt c, A g .getReq pkt c → P (upd g ⟨.getReq, pkt, c⟩) (getReq c pkt).1
    (Rxe.getReq c pkt).2.1 (Rxe.getReq c pkt).2.2
  chkPsn : ∀ g p c, A g .chkPsn (some p) c → P (upd g ⟨.chkPsn, some p, c⟩) (respCheckPsn c p).1
    (some p) (respCheckPsn c p).2
  chkOpSeq : ∀ g p c, A g .chkOpSeq (some p) c → P (upd g ⟨.chkOpSeq, some p, c⟩)
    (checkOpSeq c p).1 (some p) (checkOpSeq c p).2
  chkOpValid : ∀ g p c, A g .chkOpValid (some p) c → P (upd g ⟨.chkOpValid, some p, c⟩)
    (checkOpValid c p).1 (some p) (checkOpValid c p).2
  chkResource : ∀ g pkt c, A g .chkResource pkt c → P (upd g ⟨.chkResource, pkt, c⟩)
    (checkResource c pkt).1 pkt (checkResource c pkt).2
  chkLength : ∀ g pkt c, A g .chkLength pkt c → P (upd g ⟨.chkLength, pkt, c⟩) .chkRkey pkt c
  chkRkey : ∀ g p c, A g .chkRkey (some p) c → P (upd g ⟨.chkRkey, some p, c⟩) (checkRkey c p).1
    (some p) (checkRkey c p).2
  execute : ∀ g p c, A g .execute (some p) c → P (upd g ⟨.execute, some p, c⟩) (execute c p).1
    (some p) (Rxe.execute c p).2
  complete : ∀ g pkt c, A g .complete pkt c → P (upd g ⟨.complete, pkt, c⟩)
    (respDoComplete c pkt).1 pkt (respDoComplete c pkt).2
  readReply : ∀ g p c, A g .readReply (some p) c → P (upd g ⟨.readReply, some p, c⟩)
    (readReply c p).1 (some p) (Rxe.readReply c p).2
  acknowledge : ∀ g p c, A g .acknowledge (some p) c → P (upd g ⟨.acknowledge, some p, c⟩) .cleanup
    (some p) (acknowledge c p)
  cleanup : ∀ g pkt c, A g .cleanup pkt c → P (upd g ⟨.cleanup, pkt, c⟩) .done pkt (cleanup c pkt)
  duplicateRequest : ∀ g p c, A g .duplicateRequest (some p) c →
    P (upd g ⟨.duplicateRequest, some p, c⟩) (duplicateRequest c p).1 (some p)
      (Rxe.duplicateRequest c p).2
  errPsn : ∀ g p c, A g .errPsnOutOfSeq (some p) c → P (upd g ⟨.errPsnOutOfSeq, some p, c⟩) .cleanup
    (some p) (sendAck c p aethNakPsnSeqError c.qp.resp.psn)
  errAc : ∀ g state pkt c syn status, classAc state = some (syn, status) → A g state pkt c →
    P (upd g ⟨state, pkt, c⟩) .complete pkt (doClassAcError c syn status)
  errD1e : ∀ g pkt c, A g .errMissingOpcodeLastD1e pkt c →
    P (upd g ⟨.errMissingOpcodeLastD1e, pkt, c⟩) (doClassD1eError c).1 pkt (doClassD1eError c).2
  errRnr : ∀ g p c, A g .errRnr (some p) c → P (upd g ⟨.errRnr, some p, c⟩) .cleanup (some p)
    (respErrRnr c p)
  errRkey : ∀ g pkt c, A g .errRkeyViolation pkt c → P (upd g ⟨.errRkeyViolation, pkt, c⟩)
    (respErrRkey c).1 pkt (respErrRkey c).2
  errLength : ∀ g pkt c, A g .errLength pkt c → P (upd g ⟨.errLength, pkt, c⟩)
    (respErrLength c).1 pkt (respErrLength c).2
  toError : ∀ g state pkt c, state = .errCqOverflow ∨ c.qp.resp.gotoError ∧ (state = .done ∨
    state = .exit) → A g state pkt c → P (upd g ⟨state, pkt, c⟩) .error pkt c
  leave : ∀ g state pkt c, c.qp.resp.gotoError = false ∧ (state = .done ∨ state = .exit) ∨
    state.needsPkt ∧ pkt = none → A g state pkt c → Q (upd g ⟨state, pkt, c⟩) c
  error : ∀ g pkt c, A g .error pkt c → Q (upd g ⟨.error, pkt, c⟩)
    (rxeQpError { c with qp.resp.gotoError := false })
  reset : ∀ g pkt c, A g .reset pkt c → Q (upd g ⟨.reset, pkt, c⟩) (respReset c)

/-- What holds of the system: the invariant of the loop, or the one between calls. -/
def RespSys.Holds (P : RespState → Option Pkt → Ctx → Prop) (Q : Ctx → Prop) : RespSys → Prop
  | .idle c => Q c
  | .busy s => P s.state s.pkt s.c

namespace PassRule

variable {upd : G → RespCfg → G} {A P : G → RespState → Option Pkt → Ctx → Prop}
  {Q : G → Ctx → Prop}

theorem withPkt (h : PassRule upd A P Q) {g : G} {s : RespCfg} {f : Pkt → RespState × Ctx}
    (hneeds : s.state.needsPkt) (hA : A g s.state s.pkt s.c)
    (hf : ∀ p, s.pkt = some p → P (upd g s) (f p).1 (some p) (f p).2) :
    (RespSys.ofPass (s.withPkt fun p => s.goto (f p))).Holds (P (upd g s)) (Q (upd g s)) := by
  obtain ⟨state, pkt, c⟩ := s
  cases pkt with
  | none => exact h.leave g state none c (Or.inr ⟨hneeds, rfl⟩) hA
  | some p => exact hf p rfl

theorem step (h : PassRule upd A P Q) {g : G} {s : RespCfg} (hA : A g s.state s.pkt s.c) :
    (RespSys.ofPass (respStep s)).Holds (P (upd g s)) (Q (upd g s)) := by
  obtain ⟨state, pkt, c⟩ := s
  cases state with
  | getReq => exact h.getReq g pkt c hA
  | chkPsn => exact h.withPkt rfl hA (by rintro p rfl; exact h.chkPsn g p c hA)
  | chkOpSeq => exact h.withPkt rfl hA (by rintro p rfl; exact h.chkOpSeq g p c hA)
  | chkOpValid => exact h.withPkt rfl hA (by rintro p rfl; exact h.chkOpValid g p c hA)
  | chkResource => exact h.chkResource g pkt c hA
  | chkLength => exact h.chkLength g pkt c hA
  | chkRkey => exact h.withPkt rfl hA (by rintro p rfl; exact h.chkRkey g p c hA)
  | execute => exact h.withPkt rfl hA (by rintro p rfl; exact h.execute g p c hA)
  | complete => exact h.complete g pkt c hA
  | readReply => exact h.withPkt rfl hA (by rintro p rfl; exact h.readReply g p c hA)
  | acknowledge => exact h.withPkt rfl hA (by rintro p rfl; exact h.acknowledge g p c hA)
  | cleanup => exact h.cleanup g pkt c hA
  | duplicateRequest => exact h.withPkt rfl hA (by rintro p rfl; exact h.duplicateRequest g p c hA)
  | errPsnOutOfSeq => exact h.withPkt rfl hA (by rintro p rfl; exact h.errPsn g p c hA)
  | errTooManyRdmaAtmReq | errMissingOpcodeFirst | errMissingOpcodeLastC | errUnsupportedOpcode
  | errMisalignedAtomic | errMalformedWqe => exact h.errAc g _ pkt c _ _ rfl hA
  | errMissingOpcodeLastD1e => exact h.errD1e g pkt c hA
  | errRnr => exact h.withPkt rfl hA (by rintro p rfl; exact h.errRnr g p c hA)
  | errRkeyViolation => exact h.errRkey g pkt c hA
  | errLength => exact h.errLength g pkt c hA
  | errCqOverflow => exact h.toError g _ pkt c (Or.inl rfl) hA
  -- both look at `goto_error` before they leave the loop
  | done | exit =>
    rw [respStep]
    dsimp only
    split
    · next herr => exact h.toError g _ pkt c (Or.inr ⟨herr, by simp⟩) hA
    · next herr => exact h.leave g _ pkt c (Or.inl ⟨by simpa using herr, by simp⟩) hA
  | error => exact h.error g pkt c hA
  | reset => exact h.reset g pkt c hA

end PassRule

/-- The system with a ghost value: `upd` is its change in a pass, `obs` in any other action. -/
def ghostPass (upd : G → RespCfg → G) (obs : G → Ctx → RespAct → G) (k : RespSys × G)
    (a : RespAct) : Option (RespSys × G) :=
  (respPass k.1 a).map fun sys =>
    (sys, match k.1, a with
      | .busy s, .pass => upd k.2 s
      | sys, a => obs k.2 sys.ctx a)

open Trace in
/-- Invariant rule for runs. -/
theorem PassRule.reach {upd : G → RespCfg → G} {A P : G → RespState → Option Pkt → Ctx → Prop}
    {Q : G → Ctx → Prop} (h : PassRule upd A P Q) {obs : G → Ctx → RespAct → G}
    {ok : RespSys × G → RespAct → Prop}
    (hpass : ∀ g s, ok (.busy s, g) .pass → P g s.state s.pkt s.c → A g s.state s.pkt s.c)
    (henter : ∀ g c, Q g c → (respEnter c).Holds (P (obs g c .call)) (Q (obs g c .call)))
    (hloop : ∀ g s a f, a.change = some f → ok (.busy s, g) a → P g s.state s.pkt s.c →
      P (obs g s.c a) s.state s.pkt (f s.c))
    (hidle : ∀ g c a f, a.change = some f → ok (.idle c, g) a → Q g c → Q (obs g c a) (f c))
    {k₀ k : RespSys × G} (h₀ : k₀.1.Holds (P k₀.2) (Q k₀.2))
    (hreach : Reach (ghostPass upd obs) ok k₀ k) : k.1.Holds (P k.2) (Q k.2) := by
  refine Reach.inv (I := fun k : RespSys × G => k.1.Holds (P k.2) (Q k.2)) h₀ ?_ hreach
  rintro ⟨sys, g⟩ a k' hk hok hstep
  obtain ⟨sys', hsys', rfl⟩ := Option.map_eq_some_iff.1 hstep
  obtain ⟨c, rfl, rfl, rfl⟩ | ⟨s, rfl, rfl, rfl⟩ | ⟨f, hf, rfl⟩ := respPass_cases hsys'
  · exact henter g c hk
  · exact h.step (hpass g s hok hk)
  · cases sys with
    | idle c => exact hidle g c a f hf hok hk
    | busy s =>
      cases a with
      | call | pass => cases hf
      | recv | postRecv | error | env | shareSrq => exact hloop g s _ f hf hok hk

end PassRule

open Trace in
/-- Invariant rule for runs without a ghost value. -/
theorem PassRule.reach_plain {A P : RespState → Option Pkt → Ctx → Prop} {Q : Ctx → Prop}
    (h : PassRule (fun (_ : Unit) _ => ()) (fun _ => A) (fun _ => P) fun _ => Q)
    {ok : RespSys → RespAct → Prop}
    (hpass : ∀ s, ok (.busy s) .pass → P s.state s.pkt s.c → A s.state s.pkt s.c)
    (henter : ∀ c, Q c → (respEnter c).Holds P Q)
    (hloop : ∀ s a f, a.change = some f → ok (.busy s) a → P s.state s.pkt s.c →
      P s.state s.pkt (f s.c))
    (hidle : ∀ c a f, a.change = some f → ok (.idle c) a → Q c → Q (f c))
    {sys₀ sys : RespSys} (h₀ : sys₀.Holds P Q) (hreach : Reach respPass ok sys₀ sys) :
    sys.Holds P Q := by
  have hghost : Reach (ghostPass (fun (_ : Unit) _ => ()) fun _ _ _ => ()) (fun k a => ok k.1 a)
      (sys₀, ()) (sys, ()) := by
    induction hreach with
    | start => exact .start
    | next _ hok hstep ih => exact ih.next hok (by unfold ghostPass; rw [hstep]; rfl)
  exact h.reach (fun _ => hpass) (fun _ => henter) (fun _ => hloop) (fun _ => hidle)
    (show (sys₀, ()).1.Holds P Q from h₀) hghost

/-- Invariant rule for a call of `rxe_responder`. -/
theorem PassRule.call {P : RespState → Option Pkt → Ctx → Prop} {Q : Ctx → Prop}
    (h : PassRule (fun (_ : Unit) _ => ()) (fun _ => P) (fun _ => P) fun _ => Q) {fuel : ℕ}
    {c : Ctx} {r : Bool × Ctx} (henter : (respEnter c).Holds P Q)
    (hr : rxeResponder fuel c = some r) :
    Q r.2 := by
  unfold rxeResponder at hr
  unfold respEnter at henter
  dsimp only at hr henter
  split at hr
  · next hvalid =>
    rw [if_pos hvalid] at henter
    cases hr
    exact henter
  · next hvalid =>
    rw [if_neg hvalid] at henter
    -- the states of the loop are those of a busy system
    refine Loop.run_inv (I := fun s => (RespSys.busy s).Holds P Q) (Q := fun r => Q r.2) ?_ ?_
      henter hr
    · intro s s' hs hstep
      have hgo := h.step (g := ()) hs
      rw [hstep] at hgo
      exact hgo
    · intro s r' hs hstep
      have hgo := h.step (g := ()) hs
      rw [hstep] at hgo
      exact hgo

/-! ### Frames -/

/-- Neither an execution nor a receive completion. -/
def Event.silent : Event → Bool
  | .exec _ _ | .recvCqe _ _ => false
  | _ => true

/-- A list of silent events. -/
def Silent (es : List Event) : Prop := ∀ e ∈ es, e.silent

theorem silent_nil : Silent [] := fun _ h => nomatch h

theorem silent_one {e : Event} (he : e.silent) : Silent [e] := fun _ h =>
  List.mem_singleton.1 h ▸ he

theorem takeSkb_eq : ∃ skb, c.takeSkb.2 = { c with skb } := by
  unfold Ctx.takeSkb
  split
  · exact ⟨c.skb, rfl⟩
  · exact ⟨_, rfl⟩

theorem getReq_frame (pkt : Option Pkt) :
    ∃ pkts, (getReq c pkt).2.2 = { c with qp.reqPkts := pkts } := by
  unfold getReq
  split
  · split
    · exact ⟨c.qp.reqPkts, rfl⟩
    · exact ⟨_, rfl⟩
  · split <;> exact ⟨c.qp.reqPkts, rfl⟩

theorem respCheckPsn_frame :
    ∃ nak drop, (respCheckPsn c pkt).2 =
      { c with qp.resp.sentPsnNak := nak, qp.resp.dropMsg := drop } := by
  -- as in the frames below, the values are those of the result, whichever branch is taken
  refine ⟨(respCheckPsn c pkt).2.qp.resp.sentPsnNak, (respCheckPsn c pkt).2.qp.resp.dropMsg, ?_⟩
  unfold respCheckPsn
  dsimp only
  split
  · split
    · split <;> rfl
    · split <;> rfl
  · split
    · split <;> rfl
    · rfl
  · rfl

theorem checkOpSeq_frame : ∃ drop, (checkOpSeq c pkt).2 = { c with qp.resp.dropMsg := drop } := by
  rcases checkOpSeq_cases c pkt with h | ⟨-, h⟩ | ⟨-, h⟩ | ⟨-, h⟩ | ⟨-, h⟩ <;> rw [h]
  iterate 4 exact ⟨c.qp.resp.dropMsg, rfl⟩
  exact ⟨true, rfl⟩

theorem checkOpValid_frame :
    ∃ drop, (checkOpValid c pkt).2 = { c with qp.resp.dropMsg := drop } := by
  rcases checkOpValid_cases c pkt with h | ⟨-, h⟩ | ⟨-, h⟩ <;> rw [h]
  · exact ⟨c.qp.resp.dropMsg, rfl⟩
  · exact ⟨c.qp.resp.dropMsg, rfl⟩
  · exact ⟨true, rfl⟩

theorem getSrqWqe_frame (srq : Srq) :
    ∃ wqe srqWqe srq' es, Silent es ∧ (getSrqWqe c srq).2 =
      { c with out := c.out ++ es, qp.srq := srq', qp.resp.wqe := wqe,
               qp.resp.srqWqe := srqWqe } := by
  have hsame : c = { c with out := c.out ++ [] } := by rw [List.append_nil]
  unfold getSrqWqe
  split
  · exact ⟨c.qp.resp.wqe, c.qp.resp.srqWqe, c.qp.srq, [], silent_nil, hsame⟩
  · split
    · exact ⟨c.qp.resp.wqe, c.qp.resp.srqWqe, c.qp.srq, [], silent_nil, hsame⟩
    · dsimp only
      split
      · exact ⟨_, _, _, [.srqLimitReached], silent_one rfl, rfl⟩
      · exact ⟨_, _, _, [], silent_nil, by rw [List.append_nil]⟩

theorem checkResource_frame (pkt : Option Pkt) :
    ∃ wqe srqWqe srq status es, Silent es ∧ (checkResource c pkt).2 =
      { c with out := c.out ++ es, qp.srq := srq, qp.resp.wqe := wqe, qp.resp.srqWqe := srqWqe,
               qp.resp.status := status } := by
  have hwqe : ∀ wqe status, { c with qp.resp.wqe := wqe, qp.resp.status := status } =
      { c with out := c.out ++ [], qp.resp.wqe := wqe, qp.resp.status := status } := by
    intro wqe status
    rw [List.append_nil]
  have hflush : ∃ wqe, takeFlushWqe c = { c with qp.resp.wqe := wqe } := by
    unfold takeFlushWqe
    split
    · exact ⟨_, rfl⟩
    · exact ⟨c.qp.resp.wqe, rfl⟩
  unfold checkResource
  split
  · obtain ⟨wqe, hw⟩ := hflush
    dsimp only
    rw [hw]
    split
    · exact ⟨wqe, c.qp.resp.srqWqe, c.qp.srq, _, [], silent_nil, hwqe wqe _⟩
    · exact ⟨wqe, c.qp.resp.srqWqe, c.qp.srq, c.qp.resp.status, [], silent_nil, hwqe wqe _⟩
  -- in the other states a receive WQE is taken from one of the two queues, or nothing
  · have hkeep : ∃ wqe srqWqe srq status es, Silent es ∧ c =
        { c with out := c.out ++ es, qp.srq := srq, qp.resp.wqe := wqe, qp.resp.srqWqe := srqWqe,
                 qp.resp.status := status } :=
      ⟨c.qp.resp.wqe, c.qp.resp.srqWqe, c.qp.srq, c.qp.resp.status, [], silent_nil,
        hwqe c.qp.resp.wqe c.qp.resp.status⟩
    split
    · exact hkeep
    · split
      · exact hkeep
      · split
        · split
          · next srq _ =>
            obtain ⟨wqe, srqWqe, srq', es, hes, h⟩ := getSrqWqe_frame c srq
            exact ⟨wqe, srqWqe, srq', c.qp.resp.status, es, hes, h⟩
          · exact ⟨_, c.qp.resp.srqWqe, c.qp.srq, c.qp.resp.status, [], silent_nil,
              hwqe _ c.qp.resp.status⟩
        · exact hkeep

theorem setTarget_frame :
    ∃ va rkey resid, setTarget c pkt =
      { c with qp.resp.va := va, qp.resp.rkey := rkey, qp.resp.resid := resid } := by
  unfold setTarget
  split
  · split
    · exact ⟨_, _, _, rfl⟩
    · exact ⟨c.qp.resp.va, c.qp.resp.rkey, c.qp.resp.resid, rfl⟩
  · exact ⟨_, _, _, rfl⟩

/-- `check_rkey` lets a packet without a target pass; for the others it finds fault with the
target, or the region the target is in. -/
theorem checkRkey_outcome :
    ((p.mask.read || p.mask.write || p.mask.atomic) = false ∧ checkRkey c p = (.execute, c)) ∨
    (p.mask.read || p.mask.write || p.mask.atomic) ∧
      ((∃ state, (state = .errRkeyViolation ∨ state = .errLength) ∧
          checkRkey c p = (state, setTarget c p)) ∨
        ∃ m, checkRkey c p = (.execute, { setTarget c p with qp.resp.mr := some m }) ∧
          lookupMem (setTarget c p).dev (setTarget c p).qp.pd (some (if p.mask.read then .remoteRead
            else if p.mask.write then .remoteWrite else .remoteAtomic))
            (setTarget c p).qp.resp.rkey .remote = some m ∧
          (p.mask.write →
            writeLengthOk (setTarget c p).qp.mtu (setTarget c p).qp.resp.resid p)) := by
  unfold checkRkey
  split
  · next hremote =>
    refine Or.inr ⟨hremote, ?_⟩
    dsimp only
    split
    · exact Or.inl ⟨_, Or.inl rfl, rfl⟩
    · next m hlookup =>
      split
      · exact Or.inl ⟨_, Or.inl rfl, rfl⟩
      · split
        · exact Or.inl ⟨_, Or.inl rfl, rfl⟩
        · split
          · exact Or.inl ⟨_, Or.inr rfl, rfl⟩
          · next hlen => exact Or.inr ⟨m, rfl, hlookup, fun hwrite => by simpa [hwrite] using hlen⟩
  · next hno => exact Or.inl ⟨by simpa using hno, rfl⟩

theorem checkRkey_state : (checkRkey c p).1 = .execute ∨
    (p.mask.read || p.mask.write || p.mask.atomic) ∧
      ((checkRkey c p).1 = .errRkeyViolation ∨ (checkRkey c p).1 = .errLength) := by
  rcases checkRkey_outcome c p with ⟨-, h⟩ | ⟨hremote, ⟨state, hstate, h⟩ | ⟨m, h, -⟩⟩ <;> rw [h]
  · exact Or.inl rfl
  · exact Or.inr ⟨hremote, hstate⟩
  · exact Or.inl rfl

theorem checkRkey_frame :
    ∃ va rkey resid mr, (checkRkey c pkt).2 =
      { c with qp.resp.va := va, qp.resp.rkey := rkey, qp.resp.resid := resid,
               qp.resp.mr := mr } := by
  obtain ⟨va, rkey, resid, htarget⟩ := setTarget_frame c pkt
  rcases checkRkey_outcome c pkt with ⟨-, h⟩ | ⟨-, ⟨state, -, h⟩ | ⟨m, h, -⟩⟩ <;> rw [h]
  · exact ⟨c.qp.resp.va, c.qp.resp.rkey, c.qp.resp.resid, c.qp.resp.mr, rfl⟩
  · exact ⟨va, rkey, resid, c.qp.resp.mr, htarget⟩
  · rw [htarget]
    exact ⟨va, rkey, resid, some m, rfl⟩

theorem checkRkey_view : respView (checkRkey c pkt).2 = respView c := by
  obtain ⟨va, rkey, resid, mr, h⟩ := checkRkey_frame c pkt
  rw [h]
  rfl

theorem setRecvWqe_frame (f : RecvWqe → RecvWqe) :
    ∃ rq srqWqe, setRecvWqe c f = { c with qp.rq := rq, qp.resp.srqWqe := srqWqe } := by
  unfold setRecvWqe
  split
  · exact ⟨c.qp.rq, c.qp.resp.srqWqe, rfl⟩
  · exact ⟨_, c.qp.resp.srqWqe, rfl⟩
  · exact ⟨c.qp.rq, _, rfl⟩

theorem recvWqe_setRecvWqe (f : RecvWqe → RecvWqe) :
    recvWqe (setRecvWqe c f).qp = (recvWqe c.qp).map f := by
  unfold setRecvWqe
  split
  · next hw =>
    unfold recvWqe
    rw [hw]
    rfl
  · next i hw =>
    unfold recvWqe
    rw [hw]
    dsimp only
    rw [RingBuf.get?_modify, if_pos rfl]
  · next hw =>
    unfold recvWqe
    rw [hw]
    rfl

theorem copyLoop_inv {σ : Type} {act : σ → ℕ → ℕ → ℕ → Except Errno σ} {I : σ → Prop}
    (hact : ∀ s lkey iova bytes s', I s → act s lkey iova bytes = .ok s' → I s')
    (sges : List Sge) :
    ∀ {cur offset resid length : ℕ} {s : σ}, I s →
      I (copyLoop act sges cur offset resid length s).2.1 := by
  induction sges with
  | nil =>
    intro cur offset resid length s hs
    unfold copyLoop
    split <;> exact hs
  | cons sge rest ih =>
    intro cur offset resid length s hs
    unfold copyLoop
    split
    · exact hs
    · split
      · exact ih hs
      · dsimp only
        split
        · exact hs
        · next s' hok =>
          have hs' := hact s _ _ _ s' hs hok
          split
          · exact hs'
          · exact ih hs'

theorem copyDataWith_inv {σ : Type} {act : σ → ℕ → ℕ → ℕ → Except Errno σ} {I : σ → Prop}
    (hact : ∀ s lkey iova bytes s', I s → act s lkey iova bytes = .ok s' → I s')
    (dma : DmaInfo) (length : ℕ) {s : σ} (hs : I s) : I (copyDataWith act dma length s).2.1 := by
  have hloop : I (copyLoop act (dma.sge.drop dma.curSge) dma.curSge dma.sgeOffset dma.resid
      length s).2.1 := copyLoop_inv hact (dma.sge.drop dma.curSge) hs
  unfold copyDataWith
  split
  · exact hs
  · split
    · exact hs
    · split
      · next h =>
        rw [h] at hloop
        exact hloop
      · next h =>
        rw [h] at hloop
        exact hloop

theorem copyDataIn_frame (dev : Dev) (pd : ℕ) (access : Option Access) (dma : DmaInfo)
    (data : List UInt8) :
    ∃ byte, (copyDataIn dev pd access dma data).2.1 = { dev with byte } := by
  refine copyDataWith_inv (I := fun s : Dev × List UInt8 => ∃ byte, s.1 = { dev with byte })
    ?_ dma data.length (s := (dev, data)) ⟨dev.byte, rfl⟩
  rintro ⟨d, rest⟩ lkey iova bytes s' ⟨byte, hd⟩ hok
  unfold scatterPiece at hok
  split at hok
  · cases hok
  · unfold rxeMemCopyIn at hok
    split at hok
    · cases hok
    · next dev' hcopy =>
      split at hcopy
      · cases hcopy
      · cases hcopy
        cases hok
        exact ⟨_, by rw [hd]⟩

theorem sendDataIn_frame (data : List UInt8) :
    ∃ byte rq srqWqe, (sendDataIn c data).2 =
      { c with dev.byte := byte, qp.rq := rq, qp.resp.srqWqe := srqWqe } := by
  unfold sendDataIn
  split
  · exact ⟨c.dev.byte, c.qp.rq, c.qp.resp.srqWqe, rfl⟩
  · next wqe _ =>
    obtain ⟨byte, hdev⟩ := copyDataIn_frame c.dev c.qp.pd (some .localWrite) wqe.dma data
    dsimp only
    rw [hdev]
    obtain ⟨rq, srqWqe, h⟩ := setRecvWqe_frame { c with dev.byte := byte } fun w =>
      { w with dma := (copyDataIn c.dev c.qp.pd (some .localWrite) wqe.dma data).1 }
    rw [h]
    split <;> exact ⟨byte, rq, srqWqe, rfl⟩

theorem writeDataIn_frame :
    ∃ byte va resid, (writeDataIn c pkt).2 =
      { c with dev.byte := byte, qp.resp.va := va, qp.resp.resid := resid } := by
  unfold writeDataIn
  split
  · exact ⟨c.dev.byte, c.qp.resp.va, c.qp.resp.resid, rfl⟩
  · unfold rxeMemCopyIn
    split
    · exact ⟨c.dev.byte, c.qp.resp.va, c.qp.resp.resid, rfl⟩
    · next h =>
      split at h
      · cases h
      · cases h
        exact ⟨_, _, _, rfl⟩

theorem processAtomic_frame :
    ∃ byte orig, (processAtomic c pkt).2 =
      { c with dev.byte := byte, qp.resp.atomicOrig := orig } := by
  refine ⟨(processAtomic c pkt).2.dev.byte, (processAtomic c pkt).2.qp.resp.atomicOrig, ?_⟩
  unfold processAtomic
  split
  · rfl
  · split
    · rfl
    · split
      · rfl
      · split <;> rfl

theorem executeData_inv {P : Ctx → Prop} {p : Pkt} {c : Ctx}
    (hsend : ∀ c data, P c → P (sendDataIn c data).2)
    (hwrite : p.mask.write → ∀ c, P c → P (writeDataIn c p).2)
    (hatomic : ∀ c, P c → P (processAtomic c p).2) (h : P c) : P (executeData c p).2 := by
  unfold executeData
  split
  · split
    · have hgrh := hsend c p.grh h
      split
      · next heq =>
        rw [heq] at hgrh
        exact hgrh
      · next heq =>
        rw [heq] at hgrh
        exact hsend _ p.payload hgrh
    · exact hsend c p.payload h
  · split
    · next hmask => exact hwrite hmask c h
    · split
      · exact hatomic c h
      · exact h

theorem executeData_frame :
    ∃ byte rq srqWqe va resid orig, (executeData c pkt).2 =
      { c with dev.byte := byte, qp.rq := rq, qp.resp.srqWqe := srqWqe, qp.resp.va := va,
               qp.resp.resid := resid, qp.resp.atomicOrig := orig } := by
  refine executeData_inv (P := fun d => ∃ byte rq srqWqe va resid orig, d =
    { c with dev.byte := byte, qp.rq := rq, qp.resp.srqWqe := srqWqe, qp.resp.va := va,
             qp.resp.resid := resid, qp.resp.atomicOrig := orig }) ?_ ?_ ?_
    ⟨c.dev.byte, c.qp.rq, c.qp.resp.srqWqe, c.qp.resp.va, c.qp.resp.resid,
      c.qp.resp.atomicOrig, rfl⟩
  · rintro d data ⟨_, _, _, va, resid, orig, hd⟩
    obtain ⟨byte, rq, srqWqe, h⟩ := sendDataIn_frame d data
    rw [h, hd]
    exact ⟨byte, rq, srqWqe, va, resid, orig, rfl⟩
  · rintro - d ⟨_, rq, srqWqe, _, _, orig, hd⟩
    obtain ⟨byte, va, resid, h⟩ := writeDataIn_frame d pkt
    rw [h, hd]
    exact ⟨byte, rq, srqWqe, va, resid, orig, rfl⟩
  · rintro d ⟨_, rq, srqWqe, va, resid, _, hd⟩
    obtain ⟨byte, orig, h⟩ := processAtomic_frame d pkt
    rw [h, hd]
    exact ⟨byte, rq, srqWqe, va, resid, orig, rfl⟩

theorem executeData_view : respView (executeData c pkt).2 = respView c := by
  obtain ⟨byte, rq, srqWqe, va, resid, orig, h⟩ := executeData_frame c pkt
  rw [h]
  rfl

theorem executeData_of_write {p : Pkt} (hwrite : p.mask.write) :
    executeData c p = writeDataIn c p := by
  unfold executeData
  rw [if_neg (by simp [Pkt.mask_of_write hwrite]), if_pos hwrite]

theorem sendAck_frame (syndrome psn : ℕ) :
    ∃ skb es, Silent es ∧ sendAck c pkt syndrome psn = { c with skb, out := c.out ++ es } := by
  obtain ⟨skb, hskb⟩ := takeSkb_eq c
  unfold sendAck
  split
  · next h =>
    rw [prepareAckPacket_none_zero h, hskb]
    exact ⟨skb, [], silent_nil, by rw [List.append_nil]⟩
  · next ack _ h =>
    rw [(prepareAckPacket_some h).1, hskb]
    exact ⟨skb, [.sendResp ack], silent_one rfl, rfl⟩

theorem sendAtomicAck_frame (syndrome : ℕ) :
    (∃ skb, sendAtomicAck c pkt syndrome = { c with skb }) ∨
      ∃ skb es ack, Silent es ∧ sendAtomicAck c pkt syndrome =
        { keepAtomicAck c ack with skb, out := c.out ++ es } := by
  obtain ⟨skb, hskb⟩ := takeSkb_eq c
  unfold sendAtomicAck
  split
  · next h => exact Or.inl ⟨skb, by rw [prepareAckPacket_none_zero h, hskb]⟩
  · next ack c' h =>
    rw [(prepareAckPacket_some h).1, hskb]
    obtain ⟨skb', hskb'⟩ := takeSkb_eq (keepAtomicAck { c with skb } ack)
    right
    unfold sendClone
    split
    · next c₁ hclone =>
      rw [hclone] at hskb'
      exact ⟨skb', [.wild], ack, silent_one rfl, by rw [show c₁ = _ from hskb']; rfl⟩
    · next c₁ hclone =>
      rw [hclone] at hskb'
      exact ⟨skb', [.sendResp ack], ack, silent_one rfl, by rw [show c₁ = _ from hskb']; rfl⟩

theorem acknowledge_frame :
    (∃ skb es, Silent es ∧ acknowledge c pkt = { c with skb, out := c.out ++ es }) ∨
      ∃ skb es ack, Silent es ∧ acknowledge c pkt =
        { keepAtomicAck c ack with skb, out := c.out ++ es } := by
  have hkeep : ∃ skb es, Silent es ∧ c = { c with skb, out := c.out ++ es } :=
    ⟨c.skb, [], silent_nil, by rw [List.append_nil]⟩
  unfold acknowledge
  split
  · exact Or.inl hkeep
  · split
    · exact Or.inl (sendAck_frame c pkt _ _)
    · split
      · rcases sendAtomicAck_frame c pkt aethAckUnlimited with ⟨skb, h⟩ | h
        · exact Or.inl ⟨skb, [], silent_nil, by rw [h, List.append_nil]⟩
        · exact Or.inr h
      · split
        · exact Or.inl (sendAck_frame c pkt _ _)
        · exact Or.inl hkeep

/-- What `execute` can do: a read goes on to `read_reply`; the data of another request is moved,
which fails or ends the request. -/
theorem execute_cases :
    p.mask.read ∧ execute c p = (.readReply,
      { c with qp.resp.msn := c.qp.resp.msn + 1 }.emit (.exec p c.qp.resp.atomicOrig)) ∨
    ∃ byte rq srqWqe va resid orig d,
      d = { c with dev.byte := byte, qp.rq := rq, qp.resp.srqWqe := srqWqe, qp.resp.va := va,
                   qp.resp.resid := resid, qp.resp.atomicOrig := orig } ∧
      ((∃ err, (err = .errMalformedWqe ∨ err = .errLength ∨ err = .errRkeyViolation ∨
          err = .errMisalignedAtomic) ∧ execute c p = (err, d)) ∨
            execute c p = executeDone d p) := by
  obtain ⟨byte, rq, srqWqe, va, resid, orig, hd⟩ := executeData_frame c p
  have herr := @executeData_err c p
  unfold execute
  split
  · next hread => exact Or.inl ⟨(Bool.and_eq_true_iff.1 hread).2, rfl⟩
  · refine Or.inr ⟨byte, rq, srqWqe, va, resid, orig, _, hd, ?_⟩
    generalize executeData c p = r at herr
    obtain ⟨_ | err, d⟩ := r
    · exact Or.inr rfl
    · exact Or.inl ⟨err, herr rfl, rfl⟩

/-- `do_complete` posts a CQE for the receive WQE in use and retires it. -/
theorem respDoComplete_cases (pkt : Option Pkt) :
    (recvWqe c.qp = none ∧ respDoComplete c pkt = (.cleanup, c)) ∨
      ∃ wqe cq, recvWqe c.qp = some wqe ∧
        (respDoComplete c pkt = (respAfterCqe c pkt, { retireRecvWqe c with
            cq, out := c.out ++ [.recvCqe (makeRecvCqe c.qp wqe pkt) (recvSolicited pkt)] }) ∨
          respDoComplete c pkt = (.errCqOverflow, { retireRecvWqe c with
            cq, out := c.out ++ [.cqErr] })) := by
  unfold respDoComplete
  split
  · next h => exact Or.inl ⟨h, rfl⟩
  · next wqe h =>
    right
    unfold Ctx.cqPost
    split
    · next hpost =>
      split at hpost <;> cases hpost
      exact ⟨wqe, _, h, Or.inr rfl⟩
    · next hpost =>
      split at hpost <;> cases hpost
      · exact ⟨wqe, c.cq, h, Or.inl rfl⟩
      · exact ⟨wqe, _, h, Or.inl rfl⟩

theorem respDoComplete_view (pkt : Option Pkt) :
    respView (respDoComplete c pkt).2 = respView c := by
  rcases respDoComplete_cases c pkt with ⟨-, h⟩ | ⟨wqe, cq, -, h | h⟩ <;> rw [h]
  · exact respView_emit (retireRecvWqe c) (e := .recvCqe (makeRecvCqe c.qp wqe pkt) _) rfl
  · exact respView_emit (retireRecvWqe c) (e := .cqErr) rfl

theorem initReadRes_frame (c : Ctx) (pkt : Pkt) :
    ∃ head, initReadRes c pkt = { c with
      qp.resp.resources :=
        c.qp.resp.resources.modify c.qp.resp.resHead (RespRes.startRead c.qp pkt)
      qp.resp.resHead := head, qp.resp.mr := none, qp.resp.res := some c.qp.resp.resHead } := by
  exact ⟨_, rfl⟩

theorem readReply_start (c : Ctx) (p : Pkt) : ∃ resources resHead mr res,
    (if c.qp.resp.res.isNone then initReadRes c p else c) = { c with
      qp.resp.resources := resources, qp.resp.resHead := resHead, qp.resp.mr := mr
      qp.resp.res := res } := by
  obtain ⟨head, hinit⟩ := initReadRes_frame c p
  split
  · exact ⟨_, _, _, _, hinit⟩
  · exact ⟨_, _, _, _, rfl⟩

theorem duplicateRead_cases :
    duplicateRead c pkt = (.cleanup, c) ∨
      ∃ i res, findResource c.qp pkt.psn = some i ∧ c.qp.resp.resources[i]? = some res ∧
        replayOk res pkt ∧ duplicateRead c pkt =
          (.readReply, { setRes c i (replayRes pkt) with qp.resp.res := some i }) := by
  unfold duplicateRead
  split
  · exact Or.inl rfl
  · next i hfind =>
    split
    · exact Or.inl rfl
    · next res hres =>
      split
      · next hok => exact Or.inr ⟨i, res, hfind, hres, hok, rfl⟩
      · exact Or.inl rfl

theorem duplicateRequest_of_read {pkt : Pkt} (hread : pkt.mask.read) :
    duplicateRequest c pkt = duplicateRead c pkt := by
  unfold duplicateRequest
  rw [if_neg (by simp [Pkt.mask_of_read hread]), if_pos hread]

/-- What `duplicate_request` does with a request that is not a read. -/
theorem duplicateRequest_frame (hread : pkt.mask.read = false) :
    (duplicateRequest c pkt).1 = .cleanup ∧ ((∃ skb es, Silent es ∧
        (duplicateRequest c pkt).2 = { c with skb, out := c.out ++ es }) ∨
      ∃ skb es i ack, Silent es ∧ (duplicateRequest c pkt).2 =
        { setRes c i fun res => { res with ptr := .skb ack } with skb, out := c.out ++ es }) := by
  have hkeep : ∃ skb es, Silent es ∧ c = { c with skb, out := c.out ++ es } :=
    ⟨c.skb, [], silent_nil, by rw [List.append_nil]⟩
  unfold duplicateRequest
  split
  · refine ⟨rfl, Or.inl ?_⟩
    split
    · exact sendAck_frame c pkt _ _
    · exact hkeep
  · rw [if_neg (by simp [hread])]
    refine ⟨rfl, ?_⟩
    obtain ⟨skb, hskb⟩ := takeSkb_eq c
    -- a duplicate atomic writes the resource it finds, if that keeps a response
    have hcase := duplicateAtomic_cases c pkt
    generalize duplicateAtomic c pkt = d at hcase
    cases hcase with
    | resent i r ack =>
      rw [hskb]
      exact Or.inr ⟨skb, [.sendResp _], i, _, silent_one rfl, rfl⟩
    | dropped _ hc =>
      rcases hc with rfl | rfl
      · exact Or.inl hkeep
      · rw [hskb]
        exact Or.inl ⟨skb, [], silent_nil, by rw [List.append_nil]⟩
    | wild => exact Or.inl ⟨c.skb, [.wild], silent_one rfl, rfl⟩

theorem doClassD1eError_frame :
    ∃ drop status rq srqWqe opcode mr, (doClassD1eError c).2 =
      { c with qp.rq := rq, qp.resp.srqWqe := srqWqe, qp.resp.dropMsg := drop,
               qp.resp.status := status, qp.resp.opcode := opcode, qp.resp.mr := mr } := by
  have h : ∀ d : Ctx, d = (doClassD1eError c).2 → d = { c with
      qp.rq := d.qp.rq, qp.resp.srqWqe := d.qp.resp.srqWqe, qp.resp.dropMsg := d.qp.resp.dropMsg
      qp.resp.status := d.qp.resp.status, qp.resp.opcode := d.qp.resp.opcode
      qp.resp.mr := d.qp.resp.mr } := by
    rintro _ rfl
    unfold doClassD1eError
    split
    · dsimp only
      split <;> rfl
    · split
      · obtain ⟨rq, srqWqe, h⟩ := setRecvWqe_frame c fun w =>
          { w with dma := { w.dma with resid := w.dma.length, curSge := 0, sgeOffset := 0 } }
        rw [h]
      · rfl
  exact ⟨_, _, _, _, _, _, h _ rfl⟩

theorem doClassD1eError_state : (doClassD1eError c).1 = .complete ∨
    (doClassD1eError c).1 = .cleanup ∨ (doClassD1eError c).1 = .chkOpSeq := by
  unfold doClassD1eError
  split
  · dsimp only
    split
    · exact Or.inl rfl
    · exact Or.inr (Or.inl rfl)
  · exact Or.inr (Or.inr rfl)

theorem respErrRnr_frame :
    ∃ skb es drop, Silent es ∧ respErrRnr c pkt =
      { c with skb, out := c.out ++ es, qp.resp.dropMsg := drop } := by
  unfold respErrRnr
  split
  · obtain ⟨skb, es, hes, h⟩ :=
      sendAck_frame c pkt (aethRnrNak ||| c.qp.attr.minRnrTimer % 32) pkt.psn
    exact ⟨skb, es, c.qp.resp.dropMsg, hes, h⟩
  · exact ⟨c.skb, [], true, silent_nil, by rw [List.append_nil]⟩

theorem respErrRkey_frame :
    ∃ syn status err drop, (respErrRkey c).2 =
      { c with qp.resp.aethSyndrome := syn, qp.resp.status := status, qp.resp.gotoError := err,
               qp.resp.dropMsg := drop } := by
  refine ⟨(respErrRkey c).2.qp.resp.aethSyndrome, (respErrRkey c).2.qp.resp.status,
    (respErrRkey c).2.qp.resp.gotoError, (respErrRkey c).2.qp.resp.dropMsg, ?_⟩
  unfold respErrRkey
  split
  · rfl
  · dsimp only
    split <;> rfl

theorem respErrLength_frame :
    ∃ syn status err drop, (respErrLength c).2 =
      { c with qp.resp.aethSyndrome := syn, qp.resp.status := status, qp.resp.gotoError := err,
               qp.resp.dropMsg := drop } := by
  refine ⟨(respErrLength c).2.qp.resp.aethSyndrome, (respErrLength c).2.qp.resp.status,
    (respErrLength c).2.qp.resp.gotoError, (respErrLength c).2.qp.resp.dropMsg, ?_⟩
  unfold respErrLength
  split
  · rfl
  · split <;> rfl

theorem silent_append {es es' : List Event} (h : Silent es) (h' : Silent es') :
    Silent (es ++ es') := fun e he => (List.mem_append.1 he).elim (h e) (h' e)

theorem cqPost_frame {e : Event} (he : e.silent) :
    ∃ cq es, Silent es ∧ (c.cqPost e).2 = { c with cq, out := c.out ++ es } := by
  unfold Ctx.cqPost
  split
  · exact ⟨c.cq, [e], silent_one he, rfl⟩
  · exact ⟨_, [e], silent_one he, rfl⟩
  · exact ⟨_, [.cqErr], silent_one rfl, rfl⟩

theorem postSendCqe_frame (w : SendWqe) :
    ∃ cq es, Silent es ∧ postSendCqe c w = { c with cq, out := c.out ++ es } := by
  unfold postSendCqe
  split
  · exact cqPost_frame c rfl
  · exact ⟨c.cq, [], silent_nil, by rw [List.append_nil]⟩

theorem doComplete_resp :
    ∃ req sq cq es, Silent es ∧ doComplete c =
      { c with cq, out := c.out ++ es, qp.req := req, qp.sq := sq } := by
  unfold doComplete
  split
  · exact ⟨c.qp.req, c.qp.sq, c.cq, [], silent_nil, by rw [List.append_nil]⟩
  · next wqe _ =>
    obtain ⟨cq, es, hes, h⟩ := postSendCqe_frame c wqe
    rw [h]
    unfold wakeWaitFence
    split
    · exact ⟨_, _, cq, es ++ [.runReq], silent_append hes (silent_one rfl), by
        rw [← List.append_assoc]; rfl⟩
    · exact ⟨_, _, cq, es, hes, rfl⟩

theorem flushSq_resp (n : ℕ) : ∀ c : Ctx, ∃ req sq cq es, Silent es ∧ flushSq n c =
    { c with cq, out := c.out ++ es, qp.req := req, qp.sq := sq } := by
  induction n with
  | zero => exact fun c => ⟨c.qp.req, c.qp.sq, c.cq, [], silent_nil, by rw [List.append_nil]; rfl⟩
  | succ n ih =>
    intro c
    obtain ⟨req, sq, cq, es, hes, h⟩ := doComplete_resp (setStatus c 0 .wrFlushErr)
    obtain ⟨req', sq', cq', es', hes', h'⟩ := ih (doComplete (setStatus c 0 .wrFlushErr))
    refine ⟨req', sq', cq', es ++ es', silent_append hes hes', ?_⟩
    rw [flushSq, h', h]
    simp only [List.append_assoc]
    rfl

theorem rxeQpError_frame :
    ∃ req sq respPkts cq es, Silent es ∧ rxeQpError c =
      { c with cq, out := c.out ++ es, qp.req := req, qp.sq := sq, qp.respPkts := respPkts,
               qp.resp.state := .error } := by
  unfold rxeQpError
  dsimp only
  split
  · exact ⟨_, c.qp.sq, c.qp.respPkts, c.cq, [.runResp] ++ [.runComp] ++ [.runReq],
      silent_append (silent_append (silent_one rfl) (silent_one rfl)) (silent_one rfl), by
        simp only [← List.append_assoc]; rfl⟩
  · obtain ⟨req, sq, cq, es, hes, h⟩ := flushSq_resp c.qp.sq.live.length
      { (toErrorState c).emit .runResp with qp.respPkts := [] }
    refine ⟨req, sq, [], cq, [.runResp] ++ es ++ [.runReq],
      silent_append (silent_append (silent_one rfl) hes) (silent_one rfl), ?_⟩
    refine (congrArg (Ctx.emit · .runReq) h).trans ?_
    simp only [← List.append_assoc]
    rfl

/-- What happens to the context between two passes: another task moves the QP to the error
state, or requests arrive, and the receive queues, the device and the resources of the host
change. -/
theorem RespAct.change_frame {f : Ctx → Ctx} (h : a.change = some f) (c : Ctx) :
    f c = rxeQpError c ∨ ∃ pkts rq srq dev skb cq es, (es = [] ∨ es = [Event.runResp]) ∧
      f c = { c with qp.reqPkts := c.qp.reqPkts ++ pkts, qp.rq := rq, qp.srq := srq, dev, skb, cq,
                     out := c.out ++ es } := by
  -- no packet, no event: what the verbs and the host change
  have hstill : ∀ rq srq dev skb cq, ∃ pkts rq' srq' dev' skb' cq' es, (es = [] ∨ es = [.runResp]) ∧
      { c with qp.rq := rq, qp.srq := srq, dev, skb, cq } = { c with
        qp.reqPkts := c.qp.reqPkts ++ pkts, qp.rq := rq', qp.srq := srq', dev := dev', skb := skb'
        cq := cq', out := c.out ++ es } :=
    fun rq srq dev skb cq => ⟨[], rq, srq, dev, skb, cq, [], Or.inl rfl, by simp⟩
  cases a with
  | call | pass => cases h
  | recv pkt =>
    cases h
    exact Or.inr ⟨_, _, _, _, _, _, _, Or.inr rfl, rfl⟩
  | postRecv wrs =>
    cases h
    refine Or.inr ?_
    unfold rxePostRecv
    dsimp only
    split <;> exact hstill _ _ _ _ _
  | error =>
    cases h
    exact Or.inl rfl
  | env | shareSrq =>
    cases h
    exact Or.inr (hstill _ _ _ _ _)

theorem RespAct.change_resp {f : Ctx → Ctx} (h : a.change = some f) (c : Ctx) :
    (f c).qp.type = c.qp.type ∧ (f c).qp.mtu = c.qp.mtu ∧ (f c).qp.pd = c.qp.pd ∧
      (c.qp.resp.state = .error → (f c).qp.resp.state = .error) ∧
      (f c).qp.resp = { c.qp.resp with state := (f c).qp.resp.state } := by
  rcases change_frame h c with hc | ⟨pkts, rq, srq, dev, skb, cq, es, -, hc⟩
  · obtain ⟨req, sq, respPkts, cq, es, -, herr⟩ := rxeQpError_frame c
    rw [hc, herr]
    exact ⟨rfl, rfl, rfl, fun _ => rfl, rfl⟩
  · rw [hc]
    exact ⟨rfl, rfl, rfl, id, rfl⟩

/-! ### Where the functions go -/

/-- The states in which something is known about the packet. -/
def RespState.working : RespState → Bool
  | .getReq | .chkOpValid | .chkResource | .chkLength | .chkRkey | .execute | .readReply => true
  | _ => false

theorem respCheckPsn_state : (respCheckPsn c p).1.working = false := by
  unfold respCheckPsn
  dsimp only
  split
  · split
    · split <;> rfl
    · split <;> rfl
  · split
    · split <;> rfl
    · rfl
  · rfl

theorem checkOpSeq_state :
    (checkOpSeq c p).1 = .chkOpValid ∨ (checkOpSeq c p).1.working = false := by
  rcases checkOpSeq_cases c p with h | ⟨-, h⟩ | ⟨-, h⟩ | ⟨-, h⟩ | ⟨-, h⟩ <;> rw [h]
  · exact Or.inl rfl
  all_goals exact Or.inr rfl

theorem executeData_leave {c : Ctx} {p : Pkt} {err : RespState}
    (h : (executeData c p).1 = some err) :
    err.working = false := by
  have herr := executeData_err h
  rcases herr with rfl | rfl | rfl | rfl <;> rfl

/-- Where `read_reply` goes with the resource at an index, and what it changes. -/
theorem readReplyRes_cases (i : ℕ) (r : RespRes) :
    ∃ skb es, Silent es ∧ (readReplyRes c p i r).1.working = false ∧
      ((readReplyRes c p i r).2 = { setRes c i RespRes.started with skb, out := c.out ++ es } ∨
      ∃ n, let c' := { setRes (setRes c i RespRes.started) i (RespRes.advance n) with
          skb, out := c.out ++ es }
        (readReplyRes c p i r).2 = c' ∨
          (readReplyRes c p i r).2 = finishRead c' (psnMask (r.curPsn + 1))) := by
  obtain ⟨skb, hskb⟩ := takeSkb_eq (setRes c i RespRes.started)
  refine ⟨skb, ?_⟩
  unfold readReplyRes
  dsimp only
  split
  · next hprep =>
    rcases prepareAckPacket_none hprep with h | ⟨-, h⟩ <;> rw [h, hskb]
    · exact ⟨[], silent_nil, rfl, Or.inl (by rw [List.append_nil]; rfl)⟩
    · exact ⟨[.wild], silent_one rfl, rfl, Or.inl rfl⟩
  · next ack c' hprep =>
    rw [(prepareAckPacket_some hprep).1, hskb]
    generalize hresp : Event.sendResp { ack with payload := _ } = e
    have hsilent : Silent [e] ∧ Silent ([.wild] ++ [e]) := by
      rw [← hresp]
      exact ⟨silent_one rfl, silent_append (silent_one rfl) (silent_one rfl)⟩
    -- the region it copies from shows in the log only
    rcases copyFrom_cases { setRes c i RespRes.started with skb } r with h | h <;> rw [h] <;> split
    · exact ⟨_, hsilent.1, rfl, Or.inr ⟨_, Or.inl rfl⟩⟩
    · exact ⟨_, hsilent.1, rfl, Or.inr ⟨_, Or.inr rfl⟩⟩
    · exact ⟨_, hsilent.2, rfl, Or.inr ⟨_, Or.inl (by rw [← List.append_assoc]; rfl)⟩⟩
    · exact ⟨_, hsilent.2, rfl, Or.inr ⟨_, Or.inr (by rw [← List.append_assoc]; rfl)⟩⟩

/-- What `read_reply` changes; the end of a response forgets the last opcode. -/
theorem readReply_frame :
    (readReply c p).1.working = false ∧
      ∃ psn opcode resources resHead mr res skb es,
        (Silent es ∧ (opcode = c.qp.resp.opcode ∨ opcode = none)) ∧
        (readReply c p).2 = { c with
          skb, out := c.out ++ es, qp.resp.psn := psn, qp.resp.opcode := opcode
          qp.resp.resources := resources, qp.resp.resHead := resHead, qp.resp.mr := mr
          qp.resp.res := res } := by
  -- a new read takes a resource first; from there both go on alike
  have hstart := readReply_start c p
  unfold readReply
  dsimp only
  generalize (if c.qp.resp.res.isNone then initReadRes c p else c) = c₁ at hstart
  obtain ⟨resources, resHead, mr, res, hc₁⟩ := hstart
  have hkeep : c₁ = { c₁ with out := c₁.out ++ [] } := by rw [List.append_nil]
  split
  · rw [hkeep, hc₁]
    exact ⟨rfl, _, _, _, _, _, _, _, [], ⟨silent_nil, Or.inl rfl⟩, rfl⟩
  · next i _ =>
    split
    · rw [hkeep, hc₁]
      exact ⟨rfl, _, _, _, _, _, _, _, [], ⟨silent_nil, Or.inl rfl⟩, rfl⟩
    · next r _ =>
      obtain ⟨skb, es, hes, hleave, hc | ⟨n, hc | hc⟩⟩ := readReplyRes_cases c₁ p i r <;>
        rw [hc, hc₁]
      · exact ⟨hc₁ ▸ hleave, _, _, _, _, _, _, _, es, ⟨hes, Or.inl rfl⟩, rfl⟩
      · exact ⟨hc₁ ▸ hleave, _, _, _, _, _, _, _, es, ⟨hes, Or.inl rfl⟩, rfl⟩
      · exact ⟨hc₁ ▸ hleave, _, _, _, _, _, _, _, es, ⟨hes, Or.inr rfl⟩, rfl⟩

theorem readReply_next :
    (readReply c p).1 = .errRnr ∨ (readReply c p).1 = .done ∨ (readReply c p).1 = .cleanup := by
  unfold readReply
  dsimp only
  generalize (if c.qp.resp.res.isNone then initReadRes c p else c) = c₁
  split
  · exact Or.inr (Or.inl rfl)
  · split
    · exact Or.inr (Or.inl rfl)
    · unfold readReplyRes
      dsimp only
      split
      · exact Or.inl rfl
      · split
        · exact Or.inr (Or.inl rfl)
        · exact Or.inr (Or.inr rfl)

theorem respErrRkey_state : (respErrRkey c).1 = .complete ∨ (respErrRkey c).1 = .cleanup := by
  unfold respErrRkey
  dsimp only
  split
  · exact Or.inl rfl
  · split
    · exact Or.inl rfl
    · exact Or.inr rfl

theorem respErrLength_state : (respErrLength c).1 = .complete ∨ (respErrLength c).1 = .cleanup := by
  unfold respErrLength
  split
  · exact Or.inl rfl
  · split
    · exact Or.inl rfl
    · exact Or.inr rfl

/-- No pass leads to the reset state, and only `get_req` leads to `get_req` again. -/
theorem respStep_next : PassRule (fun (_ : RespState) s => s.state) (fun _ _ _ _ => True)
    (fun was state _ _ => state ≠ .reset ∧ (state = .getReq → was = .getReq))
    (fun _ _ => True) where
  -- in the error state `get_req` drops one request and is entered again
  getReq _ pkt c _ := by
    unfold getReq
    split
    · split <;> simp
    · split
      · simp
      · split <;> simp
  chkPsn _ p c _ := by
    unfold respCheckPsn
    dsimp only
    split
    · split
      · split <;> simp
      · split <;> simp
    · split
      · split <;> simp
      · simp
    · simp
  chkOpSeq _ p c _ := by
    rcases checkOpSeq_cases c p with h | ⟨-, h⟩ | ⟨-, h⟩ | ⟨-, h⟩ | ⟨-, h⟩ <;> simp [h]
  chkOpValid _ p c _ := by
    rcases checkOpValid_cases c p with h | ⟨-, h⟩ | ⟨-, h⟩ <;> simp [h]
  chkResource _ pkt c _ := by
    by_cases herr : c.qp.resp.state = .error
    · rcases checkResource_state_error pkt herr with hs | hs <;> simp [hs]
    · rcases checkResource_next pkt herr with hs | hs | hs | ⟨hs, -⟩ <;> simp [hs]
  chkLength _ _ _ _ := by simp
  chkRkey _ p c _ := by
    rcases checkRkey_state c p with hs | ⟨-, hs | hs⟩ <;> simp [hs]
  execute _ p c _ := by
    rcases execute_cases c p with ⟨-, heq⟩ | ⟨_, _, _, _, _, _, d, -, ⟨err, hmem, heq⟩ | heq⟩ <;>
      rw [heq]
    · simp
    · rcases hmem with rfl | rfl | rfl | rfl <;> simp
    · rcases executeDone_next d p with ⟨-, hs⟩ | ⟨-, hs | hs⟩ <;> simp [hs]
  complete _ pkt c _ := by
    rcases respDoComplete_cases c pkt with ⟨-, heq⟩ | ⟨wqe, cq, -, heq | heq⟩ <;> rw [heq]
    · simp
    · rcases respAfterCqe_cases c pkt with ⟨-, hs⟩ | hs | hs | hs <;> simp [hs]
    · simp
  readReply _ p c _ := by
    rcases readReply_next c p with hs | hs | hs <;> simp [hs]
  acknowledge _ _ _ _ := by simp
  cleanup _ _ _ _ := by simp
  duplicateRequest _ p c _ := by
    by_cases hread : p.mask.read
    · rw [duplicateRequest_of_read c hread]
      rcases duplicateRead_cases c p with heq | ⟨i, res, -, -, -, heq⟩ <;> rw [heq] <;> simp
    · rw [(duplicateRequest_frame c p (by simpa using hread)).1]
      simp
  errPsn _ _ _ _ := by simp
  errAc _ _ _ _ _ _ _ _ := by simp
  errD1e _ _ c _ := by
    rcases doClassD1eError_state c with hs | hs | hs <;> simp [hs]
  errRnr _ _ _ _ := by simp
  errRkey _ _ c _ := by
    rcases respErrRkey_state c with hs | hs <;> simp [hs]
  errLength _ _ c _ := by
    rcases respErrLength_state c with hs | hs <;> simp [hs]
  toError _ _ _ _ _ _ := by simp
  leave _ _ _ _ _ _ := trivial
  error _ _ _ _ := trivial
  reset _ _ _ _ := trivial

/-! ### Passes that only keep the books -/

/-- A change of the receive queues, of the verdict on the request and of what is sent. -/
def Quiet (c c' : Ctx) : Prop :=
  c' = { c with
    cq := c'.cq, skb := c'.skb, out := c'.out, qp.rq := c'.qp.rq, qp.srq := c'.qp.srq
    qp.resp.wqe := c'.qp.resp.wqe, qp.resp.srqWqe := c'.qp.resp.srqWqe
    qp.resp.status := c'.qp.resp.status, qp.resp.aethSyndrome := c'.qp.resp.aethSyndrome
    qp.resp.gotoError := c'.qp.resp.gotoError, qp.resp.dropMsg := c'.qp.resp.dropMsg }

/-- The states in which a pass makes such a change. -/
def RespState.books : RespState → Bool
  | .chkOpValid | .chkResource | .complete | .errPsnOutOfSeq | .errRnr | .errRkeyViolation
  | .errLength => true
  | state => (classAc state).isSome

/-- The states in which the verdict on the request is known. -/
def RespState.judged : RespState → Bool
  | .complete | .acknowledge | .cleanup | .done | .exit | .errRnr | .errUnsupportedOpcode
  | .errTooManyRdmaAtmReq | .errCqOverflow => true
  | _ => false

/-- What such passes ask of an invariant: the request is settled, or it gets further. -/
structure QuietRule (A : RespState → Option Pkt → Ctx → Prop) : Prop where
  settle : ∀ {state state' pkt c c'}, state.books → state'.judged → Quiet c c' → A state pkt c →
    A state' pkt c'
  opValid : ∀ {pkt c}, A .chkOpValid pkt c → A .chkResource pkt c
  resource : ∀ {pkt c c'}, Quiet c c' → c.qp.resp.state ≠ .error →
    (∀ p ∈ pkt, p.mask.read → 0 < c.qp.attr.maxRdAtomic) → A .chkResource pkt c →
      A .chkLength pkt c'
  flush : ∀ {pkt c c'}, Quiet c c' → c.qp.resp.state = .error → A .complete pkt c →
    A .chkResource pkt c'

theorem RespState.judged_not_working {state : RespState} (h : state.judged) :
    state.working = false := by
  cases state <;> first | rfl | cases h

namespace QuietRule

variable {A : RespState → Option Pkt → Ctx → Prop} {pkt : Option Pkt} {p : Pkt} {c : Ctx}

theorem chkOpValid (h : QuietRule A) (hA : A .chkOpValid (some p) c) :
    A (checkOpValid c p).1 (some p) (checkOpValid c p).2 := by
  rcases checkOpValid_cases c p with heq | ⟨-, heq⟩ | ⟨-, heq⟩ <;> rw [heq]
  · exact h.opValid hA
  all_goals exact h.settle rfl rfl rfl hA

theorem chkResource (h : QuietRule A) (hA : A .chkResource pkt c) :
    A (checkResource c pkt).1 pkt (checkResource c pkt).2 := by
  have hquiet : Quiet c (checkResource c pkt).2 := by
    obtain ⟨wqe, srqWqe, srq, status, es, -, hc⟩ := checkResource_frame c pkt
    rw [hc]
    rfl
  by_cases herr : c.qp.resp.state = .error
  · rcases checkResource_state_error pkt herr with hs | hs <;> rw [hs] <;>
      exact h.settle rfl rfl hquiet hA
  · rcases checkResource_next pkt herr with hs | hs | hs | ⟨hs, hread⟩ <;> rw [hs]
    iterate 3 exact h.settle rfl rfl hquiet hA
    exact h.resource hquiet herr hread hA

theorem complete (h : QuietRule A) (hA : A .complete pkt c) :
    A (respDoComplete c pkt).1 pkt (respDoComplete c pkt).2 := by
  rcases respDoComplete_cases c pkt with ⟨-, heq⟩ | ⟨wqe, cq, -, heq | heq⟩ <;> rw [heq]
  · exact h.settle rfl rfl rfl hA
  · rcases respAfterCqe_cases c pkt with ⟨herr, hs⟩ | hs | hs | hs <;> rw [hs]
    · exact h.flush rfl herr hA
    all_goals exact h.settle rfl rfl rfl hA
  · exact h.settle rfl rfl rfl hA

theorem errPsn (h : QuietRule A) (hA : A .errPsnOutOfSeq (some p) c) :
    A .cleanup (some p) (sendAck c p aethNakPsnSeqError c.qp.resp.psn) := by
  obtain ⟨skb, es, -, hc⟩ := sendAck_frame c p aethNakPsnSeqError c.qp.resp.psn
  rw [hc]
  exact h.settle rfl rfl rfl hA

theorem errAc (h : QuietRule A) {state : RespState} {syn : ℕ} {status : WcStatus}
    (hclass : classAc state = some (syn, status)) (hA : A state pkt c) :
    A .complete pkt (doClassAcError c syn status) :=
  h.settle (by cases state <;> first | rfl | cases hclass) rfl rfl hA

theorem errRnr (h : QuietRule A) (hA : A .errRnr (some p) c) :
    A .cleanup (some p) (respErrRnr c p) := by
  obtain ⟨skb, es, drop, -, hc⟩ := respErrRnr_frame c p
  rw [hc]
  exact h.settle rfl rfl rfl hA

theorem errRkey (h : QuietRule A) (hA : A .errRkeyViolation pkt c) :
    A (respErrRkey c).1 pkt (respErrRkey c).2 := by
  obtain ⟨syn, status, err, drop, hc⟩ := respErrRkey_frame c
  rw [hc]
  rcases respErrRkey_state c with hs | hs <;> rw [hs] <;> exact h.settle rfl rfl rfl hA

theorem errLength (h : QuietRule A) (hA : A .errLength pkt c) :
    A (respErrLength c).1 pkt (respErrLength c).2 := by
  obtain ⟨syn, status, err, drop, hc⟩ := respErrLength_frame c
  rw [hc]
  rcases respErrLength_state c with hs | hs <;> rw [hs] <;> exact h.settle rfl rfl rfl hA

end QuietRule

/-! ### What a pass does -/

/-- The passes that write the responder resources. -/
def RespState.rings : RespState → Bool
  | .readReply | .acknowledge | .duplicateRequest => true
  | _ => false

/-- The index of the next resource, and the resources. -/
def RespInfo.ring (resp : RespInfo) : ℕ × List RespRes := (resp.resHead, resp.resources)

/-- A change of what belongs to the responder, other than its state and, unless the pass `rings`,
the resources; only silent events. -/
def Works (rings : Bool) (c c' : Ctx) : Prop :=
  ∃ rq srq resp skb es, c' = { c with
    qp.rq := rq, qp.srq := srq, qp.resp := resp, skb, out := c.out ++ es } ∧
      Silent es ∧ resp.state = c.qp.resp.state ∧ (rings = false → resp.ring = c.qp.resp.ring)

theorem Works.mk {rings : Bool} {c : Ctx} (rq : RingBuf RecvWqe) (srq : Option Srq)
    {resp : RespInfo} (skb : List Bool) (h : resp.state = c.qp.resp.state)
    (hring : rings = false → resp.ring = c.qp.resp.ring) :
    Works rings c { c with qp.rq := rq, qp.srq := srq, qp.resp := resp, skb } :=
  ⟨rq, srq, resp, skb, [], by rw [List.append_nil], silent_nil, h, hring⟩

/-- The packet the responder works on and the context after a pass. -/
inductive RespChange (s : RespCfg) : Option Pkt → Ctx → Prop
  | getReq (h : s.state = .getReq) :
      RespChange s (getReq s.c s.pkt).2.1 (Rxe.getReq s.c s.pkt).2.2
  | execute {p : Pkt} (h : s.state = .execute) : RespChange s s.pkt (execute s.c p).2
  | complete (h : s.state = .complete) : RespChange s s.pkt (respDoComplete s.c s.pkt).2
  | cleanup (h : s.state = .cleanup) : RespChange s s.pkt (cleanup s.c s.pkt)
  | error (h : s.state = .error) :
      RespChange s s.pkt (rxeQpError { s.c with qp.resp.gotoError := false })
  | reset (h : s.state = .reset) : RespChange s s.pkt (respReset s.c)
  | work {c : Ctx} (hget : s.state ≠ .getReq) (hclean : s.state ≠ .cleanup)
      (herr : s.state ≠ .error) (hreset : s.state ≠ .reset) (h : Works s.state.rings s.c c) :
      RespChange s s.pkt c

theorem respChangeRule : PassRule (fun (_ : RespCfg) s => s) (fun _ _ _ _ => True)
    (fun s _ pkt c => RespChange s pkt c) (fun s c => RespChange s s.pkt c) where
  getReq _ pkt c _ := RespChange.getReq (s := ⟨.getReq, pkt, c⟩) rfl
  chkPsn _ p c _ := by
    obtain ⟨nak, drop, hc⟩ := respCheckPsn_frame c p
    rw [hc]
    exact .work nofun nofun nofun nofun (.mk _ _ _ rfl fun _ => rfl)
  chkOpSeq _ p c _ := by
    obtain ⟨drop, hc⟩ := checkOpSeq_frame c p
    rw [hc]
    exact .work nofun nofun nofun nofun (.mk _ _ _ rfl fun _ => rfl)
  chkOpValid _ p c _ := by
    obtain ⟨drop, hc⟩ := checkOpValid_frame c p
    rw [hc]
    exact .work nofun nofun nofun nofun (.mk _ _ _ rfl fun _ => rfl)
  chkResource _ pkt c _ := by
    obtain ⟨wqe, srqWqe, srq, status, es, hes, hc⟩ := checkResource_frame c pkt
    rw [hc]
    exact .work nofun nofun nofun nofun ⟨_, _, _, _, _, rfl, hes, rfl, fun _ => rfl⟩
  chkLength _ _ c _ := .work nofun nofun nofun nofun (.mk _ _ _ rfl fun _ => rfl)
  chkRkey _ p c _ := by
    obtain ⟨va, rkey, resid, mr, hc⟩ := checkRkey_frame c p
    rw [hc]
    exact .work nofun nofun nofun nofun (.mk _ _ _ rfl fun _ => rfl)
  execute _ _ _ _ := .execute rfl
  complete _ _ _ _ := .complete rfl
  readReply _ p c _ := by
    obtain ⟨-, psn, opcode, resources, resHead, mr, res, skb, es, ⟨hes, -⟩, hc⟩ :=
      readReply_frame c p
    rw [hc]
    exact .work nofun nofun nofun nofun ⟨_, _, _, _, _, rfl, hes, rfl, nofun⟩
  acknowledge _ p c _ := by
    refine .work nofun nofun nofun nofun ?_
    rcases acknowledge_frame c p with ⟨skb, es, hes, hc⟩ | ⟨skb, es, ack, hes, hc⟩ <;> rw [hc] <;>
      exact ⟨_, _, _, _, _, rfl, hes, rfl, nofun⟩
  cleanup _ _ _ _ := .cleanup rfl
  duplicateRequest _ p c _ := by
    refine .work nofun nofun nofun nofun ?_
    by_cases hread : p.mask.read
    · rw [duplicateRequest_of_read c hread]
      rcases duplicateRead_cases c p with hc | ⟨i, res, -, -, -, hc⟩ <;> rw [hc]
      · exact .mk _ _ _ rfl nofun
      · exact .mk _ _ _ rfl nofun
    · obtain ⟨-, ⟨skb, es, hes, hc⟩ | ⟨skb, es, i, ack, hes, hc⟩⟩ :=
        duplicateRequest_frame c p (by simpa using hread) <;> rw [hc] <;>
          exact ⟨_, _, _, _, _, rfl, hes, rfl, nofun⟩
  errPsn _ p c _ := by
    obtain ⟨skb, es, hes, hc⟩ := sendAck_frame c p aethNakPsnSeqError c.qp.resp.psn
    rw [hc]
    exact .work nofun nofun nofun nofun ⟨_, _, _, _, _, rfl, hes, rfl, fun _ => rfl⟩
  -- the class A and C errors are not among the states set apart
  errAc _ state pkt c syn status hstate _ := by
    have hne : ∀ other : RespState, classAc other = none → state ≠ other := by
      rintro other hnone rfl
      rw [hnone] at hstate
      cases hstate
    exact .work (hne _ rfl) (hne _ rfl) (hne _ rfl) (hne _ rfl) (.mk _ _ _ rfl fun _ => rfl)
  errD1e _ _ c _ := by
    obtain ⟨drop, status, rq, srqWqe, opcode, mr, hc⟩ := doClassD1eError_frame c
    rw [hc]
    exact .work nofun nofun nofun nofun (.mk _ _ _ rfl fun _ => rfl)
  errRnr _ p c _ := by
    obtain ⟨skb, es, drop, hes, hc⟩ := respErrRnr_frame c p
    rw [hc]
    exact .work nofun nofun nofun nofun ⟨_, _, _, _, _, rfl, hes, rfl, fun _ => rfl⟩
  errRkey _ _ c _ := by
    obtain ⟨syn, status, err, drop, hc⟩ := respErrRkey_frame c
    rw [hc]
    exact .work nofun nofun nofun nofun (.mk _ _ _ rfl fun _ => rfl)
  errLength _ _ c _ := by
    obtain ⟨syn, status, err, drop, hc⟩ := respErrLength_frame c
    rw [hc]
    exact .work nofun nofun nofun nofun (.mk _ _ _ rfl fun _ => rfl)
  toError _ state pkt c hstate _ := by
    rcases hstate with rfl | ⟨-, rfl | rfl⟩ <;>
      exact .work nofun nofun nofun nofun (.mk _ _ _ rfl fun _ => rfl)
  -- a pass that lacks its packet leaves the loop with nothing changed
  leave _ state pkt c hstate _ := by
    rcases hstate with ⟨-, rfl | rfl⟩ | ⟨hneeds, -⟩
    · exact .work nofun nofun nofun nofun (.mk _ _ _ rfl fun _ => rfl)
    · exact .work nofun nofun nofun nofun (.mk _ _ _ rfl fun _ => rfl)
    · have hne : ∀ other : RespState, other.needsPkt = false → state ≠ other := by
        rintro other hno rfl
        rw [hno] at hneeds
        cases hneeds
      exact .work (hne _ rfl) (hne _ rfl) (hne _ rfl) (hne _ rfl) (.mk _ _ _ rfl fun _ => rfl)
  error _ _ _ _ := .error rfl
  reset _ _ _ _ := .reset rfl

/-- What a pass does, whether it goes on or leaves the loop. -/
theorem respStep_change (s : RespCfg) :
    (RespSys.ofPass (respStep s)).Holds (fun _ pkt c => RespChange s pkt c) (RespChange s s.pkt) :=
  respChangeRule.step (g := s) (s := s) trivial

theorem respStep_ctx (s : RespCfg) : ∃ pkt, RespChange s pkt (RespSys.ofPass (respStep s)).ctx := by
  have hstep := respStep_change s
  cases hr : respStep s <;> rw [hr] at hstep <;> exact ⟨_, hstep⟩

end Rxe
