/-
When a call of `rxe_responder` returns.

The loop of the responder goes back in three places: `get_req` drops the packets of a QP in
error one by one, a flush goes from `do_complete` back to `check_resource`, and an error of
class D1 goes back to `check_op_seq`.  The third relies on `do_class_d1e_error` forgetting
the opcode of the message in progress, which it does only where a receive WQE is in use.

* `respRank` — a measure of the passes still to come;
* `respHalts` — every pass lowers it, unless the loop is wedged (`Wedged`);
* `responder_halts_iff` — a call returns exactly when it does not run into a wedge.
-/
import Rxe.UcStream

namespace Rxe

variable {c : Ctx} {p : Pkt}

/-! ### The wedge -/

/-- `check_op_seq` and the D1 error go round in circles: a message is in progress without a
receive WQE, and the packet does not continue it. -/
def Wedged (c : Ctx) (p : Pkt) : Prop :=
  c.qp.type = .uc ∧ c.qp.srq = none ∧ c.qp.resp.wqe = none ∧
    ∃ K ∈ openKind c.qp.resp.opcode, p.opcode ∉ K.next

/-- `check_psn` on a UC QP does not drop the packet. -/
def Admitted (c : Ctx) (p : Pkt) : Prop :=
  c.qp.resp.dropMsg ∨ psnCompare p.psn c.qp.resp.psn ≠ 0 → p.mask.start

/-- The call takes up a packet on which it is wedged. -/
def Spins (c : Ctx) : Prop :=
  c.qp.valid ∧ c.qp.resp.state ≠ .reset ∧ c.qp.resp.state ≠ .error ∧ c.qp.resp.res = none ∧
    ∃ p ∈ c.qp.reqPkts.head?, Admitted c p ∧ Wedged c p

instance (c : Ctx) (p : Pkt) : Decidable (Wedged c p) :=
  inferInstanceAs (Decidable (_ ∧ _ ∧ _ ∧ ∃ K ∈ openKind c.qp.resp.opcode, p.opcode ∉ K.next))

instance (c : Ctx) (p : Pkt) : Decidable (Admitted c p) :=
  inferInstanceAs (Decidable (_ ∨ _ → _))

instance (c : Ctx) : Decidable (Spins c) :=
  inferInstanceAs (Decidable (_ ∧ _ ∧ _ ∧ _ ∧ ∃ p ∈ c.qp.reqPkts.head?, Admitted c p ∧ Wedged c p))

theorem Wedged.checkOpSeq (h : Wedged c p) :
    checkOpSeq c p = (.errMissingOpcodeLastD1e, c) := by
  obtain ⟨huc, -, -, K, hK, hnext⟩ := h
  rw [checkOpSeq_eq huc, hK]
  dsimp only
  rw [if_neg hnext]

theorem wedged_of_d1e (h : (checkOpSeq c p).1 = .errMissingOpcodeLastD1e)
    (hsrq : c.qp.srq = none) (hwqe : c.qp.resp.wqe = none) : Wedged c p := by
  have huc : c.qp.type = .uc := by
    rcases checkOpSeq_cases c p with heq | ⟨-, heq⟩ | ⟨-, heq⟩ | ⟨huc, -⟩ | ⟨huc, -⟩
    iterate 3 cases (congrArg Prod.fst heq).symm.trans h
    all_goals exact huc
  refine ⟨huc, hsrq, hwqe, ?_⟩
  rw [checkOpSeq_eq huc] at h
  split at h
  · next K hK =>
    refine ⟨K, hK, fun hnext => ?_⟩
    rw [if_pos hnext] at h
    cases h
  · split at h <;> cases h

/-! ### The measure -/

/-- A bound on the passes still to come in a flush; a receive WQE takes two. -/
def flushRank (c : Ctx) : ℕ :=
  if (takeFlushWqe c).qp.resp.wqe.isSome then 2 * c.qp.rq.live.length + 8 else 3

/-- A bound on the passes still to come. -/
def respRank (state : RespState) (pkt : Option Pkt) (c : Ctx) : ℕ :=
  let n := 2 * c.qp.rq.live.length
  match state with
  | .error | .reset => 1
  | .done | .exit | .errCqOverflow => 2
  | .cleanup => 3
  | .acknowledge | .errRnr | .errPsnOutOfSeq => 4
  | .readReply => 5
  | .duplicateRequest => 6
  | .complete => n + 7
  | .errMalformedWqe | .errUnsupportedOpcode | .errMisalignedAtomic | .errMissingOpcodeFirst
  | .errMissingOpcodeLastC | .errTooManyRdmaAtmReq | .errRkeyViolation | .errLength => n + 8
  | .execute => n + 9
  | .chkRkey => n + 10
  | .chkLength => n + 11
  | .chkResource => if c.qp.resp.state = .error then flushRank c else n + 12
  | .chkOpValid => n + 13
  | .chkOpSeq =>
    if ∃ p ∈ pkt, (checkOpSeq c p).1 = .errMissingOpcodeLastD1e then n + 16 else n + 14
  | .errMissingOpcodeLastD1e => n + 15
  | .chkPsn => n + 17
  | .getReq => n + 18 + c.qp.reqPkts.length

/-- The call will not be wedged. -/
def Moving (state : RespState) (pkt : Option Pkt) (c : Ctx) : Prop :=
  match state with
  | .getReq => c.qp.resp.state ≠ .error → c.qp.resp.res = none →
    ∀ p, c.qp.reqPkts.head? = some p → Admitted c p → ¬ Wedged c p
  | .chkPsn => ∀ p, pkt = some p → Admitted c p → ¬ Wedged c p
  | .chkOpSeq => ∀ p, pkt = some p → ¬ Wedged c p
  | .errMissingOpcodeLastD1e => ¬ (c.qp.srq = none ∧ c.qp.resp.wqe = none)
  | _ => True

theorem flushRank_le (c : Ctx) : flushRank c ≤ 2 * c.qp.rq.live.length + 8 := by
  unfold flushRank
  split <;> omega

theorem respRank_chkResource (pkt : Option Pkt) (c : Ctx) :
    respRank .chkResource pkt c ≤ 2 * c.qp.rq.live.length + 12 := by
  have hflush := flushRank_le c
  unfold respRank
  dsimp only
  split <;> omega

theorem respRank_chkOpSeq (pkt : Option Pkt) (c : Ctx) :
    respRank .chkOpSeq pkt c ≤ 2 * c.qp.rq.live.length + 16 := by
  unfold respRank
  dsimp only
  split <;> omega

theorem setRecvWqe_length (c : Ctx) (f : RecvWqe → RecvWqe) :
    (setRecvWqe c f).qp.rq.live.length = c.qp.rq.live.length := by
  unfold setRecvWqe
  split
  · rfl
  · exact RingBuf.modify_live_length _ _ _
  · rfl

theorem sendDataIn_length (c : Ctx) (data : List UInt8) :
    (sendDataIn c data).2.qp.rq.live.length = c.qp.rq.live.length := by
  unfold sendDataIn
  split
  · rfl
  · dsimp only
    split <;> exact setRecvWqe_length _ _

theorem executeData_length (c : Ctx) (p : Pkt) :
    (executeData c p).2.qp.rq.live.length = c.qp.rq.live.length := by
  refine executeData_inv (P := fun d => d.qp.rq.live.length = c.qp.rq.live.length)
    (fun d data h => (sendDataIn_length d data).trans h) (fun _ d h => ?_) (fun d h => ?_) rfl
  · obtain ⟨byte, va, resid, hd⟩ := writeDataIn_frame d p
    rw [hd]
    exact h
  · obtain ⟨byte, orig, hd⟩ := processAtomic_frame d p
    rw [hd]
    exact h

theorem flushRank_retire (c : Ctx) (cq : List Bool) (out : List Event) :
    flushRank { retireRecvWqe c with cq, out } < 2 * c.qp.rq.live.length + 7 := by
  unfold flushRank
  split
  · next hsome =>
    have hsrq : c.qp.srq = none := by
      by_contra hsrq
      unfold takeFlushWqe at hsome
      rw [if_neg (show ¬ ((retireRecvWqe c).qp.resp.wqe.isNone ∧
        (retireRecvWqe c).qp.srq.isNone) from
          fun h => hsrq (Option.isNone_iff_eq_none.1 h.2))] at hsome
      cases hsome
    have hrq : (retireRecvWqe c).qp.rq = c.qp.rq.pop := if_pos (Option.isNone_iff_eq_none.2 hsrq)
    -- there is another WQE to flush behind the one that is retired
    have hne : c.qp.rq.pop.live ≠ [] := by
      intro hnil
      unfold takeFlushWqe at hsome
      rw [if_pos (show (retireRecvWqe c).qp.resp.wqe.isNone ∧ (retireRecvWqe c).qp.srq.isNone from
        ⟨rfl, Option.isNone_iff_eq_none.2 hsrq⟩)] at hsome
      unfold takeRqHead at hsome
      rw [hrq, hnil] at hsome
      cases hsome
    rw [hrq]
    cases hlive : c.qp.rq.live with
    | nil =>
      unfold RingBuf.pop at hne
      rw [hlive] at hne
      exact absurd hlive hne
    | cons w rest =>
      rw [RingBuf.pop_live hlive, List.length_cons]
      dsimp only
      omega
  · omega

/-! ### Every pass lowers the measure -/

/-- Every pass lowers the measure. -/
theorem respHalts : PassRule (fun (n : ℕ) _ => n)
    (fun n state pkt c => Moving state pkt c ∧ respRank state pkt c ≤ n)
    (fun n state pkt c => Moving state pkt c ∧ respRank state pkt c < n) (fun _ _ => True) where
  getReq n pkt c h := by
    obtain ⟨hmove, hrank⟩ := h
    change 2 * c.qp.rq.live.length + 18 + c.qp.reqPkts.length ≤ n at hrank
    unfold getReq
    split
    · next herr =>
      split
      · refine ⟨trivial, ?_⟩
        have hle := respRank_chkResource pkt c
        dsimp only
        omega
      · next p pkts hpkts =>
        refine ⟨fun hne => absurd herr hne, ?_⟩
        rw [hpkts, List.length_cons] at hrank
        show 2 * c.qp.rq.live.length + 18 + pkts.length < n
        omega
    · next herr =>
      split
      · exact ⟨trivial, by show 2 < n; omega⟩
      · next p pkts hpkts =>
        split
        · exact ⟨trivial, by show 5 < n; omega⟩
        · next hres =>
          refine ⟨?_, by show 2 * c.qp.rq.live.length + 17 < n; omega⟩
          rintro _ ⟨⟩
          exact hmove herr (by simpa using hres) p (by rw [hpkts]; rfl)
  chkPsn n p c h := by
    obtain ⟨hmove, hrank⟩ := h
    change 2 * c.qp.rq.live.length + 17 ≤ n at hrank
    -- `check_psn` does not touch the receive queue
    have hseq : ∀ c', c'.qp.rq = c.qp.rq → respRank .chkOpSeq (some p) c' < n := by
      intro c' hrq
      have hle := respRank_chkOpSeq (some p) c'
      rw [hrq] at hle
      omega
    unfold respCheckPsn
    dsimp only
    split
    · next hrc =>
      split
      · split
        · exact ⟨trivial, by show 3 < n; omega⟩
        · exact ⟨trivial, by show 4 < n; omega⟩
      · split
        · exact ⟨trivial, by show 6 < n; omega⟩
        · refine ⟨fun q _ hw => ?_, hseq _ rfl⟩
          cases hrc.symm.trans hw.1
    · split
      · split
        · next hstart =>
          refine ⟨?_, hseq _ rfl⟩
          rintro _ ⟨⟩
          exact hmove p rfl fun _ => hstart
        · exact ⟨trivial, by show 3 < n; omega⟩
      · next hin =>
        refine ⟨?_, hseq _ rfl⟩
        rintro _ ⟨⟩
        exact hmove p rfl fun hout => absurd hout hin
    · next hrc huc =>
      exact ⟨fun q _ hw => huc hw.1, hseq _ rfl⟩
  chkOpSeq n p c h := by
    obtain ⟨hmove, hrank⟩ := h
    have hbase : 2 * c.qp.rq.live.length + 14 ≤ n := by
      unfold respRank at hrank
      dsimp only at hrank
      split at hrank <;> omega
    rcases checkOpSeq_cases c p with heq | ⟨-, heq⟩ | ⟨-, heq⟩ | ⟨-, heq⟩ | ⟨-, heq⟩
    · rw [heq]
      exact ⟨trivial, by show 2 * c.qp.rq.live.length + 13 < n; omega⟩
    · rw [heq]
      exact ⟨trivial, by show 2 * c.qp.rq.live.length + 8 < n; omega⟩
    · rw [heq]
      exact ⟨trivial, by show 2 * c.qp.rq.live.length + 8 < n; omega⟩
    · have hd1e : (checkOpSeq c p).1 = .errMissingOpcodeLastD1e := congrArg Prod.fst heq
      unfold respRank at hrank
      dsimp only at hrank
      rw [if_pos ⟨p, rfl, hd1e⟩] at hrank
      rw [heq]
      refine ⟨fun hnone => hmove p rfl (wedged_of_d1e hd1e hnone.1 hnone.2), ?_⟩
      show 2 * c.qp.rq.live.length + 15 < n
      omega
    · rw [heq]
      exact ⟨trivial, by show 3 < n; omega⟩
  chkOpValid n p c h := by
    obtain ⟨-, hrank⟩ := h
    change 2 * c.qp.rq.live.length + 13 ≤ n at hrank
    have hres := respRank_chkResource (some p) c
    rcases checkOpValid_cases c p with heq | ⟨-, heq⟩ | ⟨-, heq⟩ <;> rw [heq]
    · exact ⟨trivial, by dsimp only; omega⟩
    · exact ⟨trivial, by show 2 * c.qp.rq.live.length + 8 < n; omega⟩
    · exact ⟨trivial, by show 3 < n; omega⟩
  chkResource n pkt c h := by
    obtain ⟨-, hrank⟩ := h
    unfold respRank at hrank
    dsimp only at hrank
    obtain ⟨wqe, srqWqe, srq, status, es, -, hc⟩ := checkResource_frame c pkt
    by_cases herr : c.qp.resp.state = .error
    · rw [if_pos herr] at hrank
      unfold checkResource flushRank at *
      rw [if_pos herr] at hc ⊢
      dsimp only at hc ⊢
      split
      · next hsome =>
        rw [if_pos hsome] at hrank hc
        refine ⟨trivial, ?_⟩
        have hrq : (takeFlushWqe c).qp.rq = c.qp.rq := congrArg (·.qp.rq) hc
        show 2 * (takeFlushWqe c).qp.rq.live.length + 7 < n
        rw [hrq]
        omega
      · next hsome =>
        rw [if_neg hsome] at hrank
        exact ⟨trivial, by show 2 < n; omega⟩
    · rw [if_neg herr] at hrank
      rw [hc]
      rcases checkResource_next pkt herr with hs | hs | hs | ⟨hs, -⟩ <;> rw [hs]
      · exact ⟨trivial, by show 2 < n; omega⟩
      · exact ⟨trivial, by show 4 < n; omega⟩
      · exact ⟨trivial, by show 2 * c.qp.rq.live.length + 8 < n; omega⟩
      · exact ⟨trivial, by show 2 * c.qp.rq.live.length + 11 < n; omega⟩
  chkLength n pkt c h := ⟨trivial, h.2⟩
  chkRkey n p c h := by
    obtain ⟨-, hrank⟩ := h
    change 2 * c.qp.rq.live.length + 10 ≤ n at hrank
    obtain ⟨va, rkey, resid, mr, hc⟩ := checkRkey_frame c p
    rw [hc]
    rcases checkRkey_state c p with hs | ⟨-, hs | hs⟩ <;> rw [hs]
    · exact ⟨trivial, by show 2 * c.qp.rq.live.length + 9 < n; omega⟩
    all_goals exact ⟨trivial, by show 2 * c.qp.rq.live.length + 8 < n; omega⟩
  execute n p c h := by
    obtain ⟨-, hrank⟩ := h
    change 2 * c.qp.rq.live.length + 9 ≤ n at hrank
    have hlen := executeData_length c p
    unfold Rxe.execute
    split
    · exact ⟨trivial, by show 5 < n; omega⟩
    · split
      · next err c₁ herr =>
        have hstate := executeData_err (congrArg Prod.fst herr)
        rw [herr] at hlen
        dsimp only at hlen
        have hlow : 2 * c₁.qp.rq.live.length + 8 < n := by omega
        rcases hstate with rfl | rfl | rfl | rfl <;> exact ⟨trivial, hlow⟩
      · next c₁ hok =>
        rw [hok] at hlen
        dsimp only at hlen
        rcases executeDone_next c₁ p with ⟨-, hs⟩ | ⟨-, hs | hs⟩ <;> rw [hs]
        · exact ⟨trivial, by show 2 * c₁.qp.rq.live.length + 7 < n; omega⟩
        · exact ⟨trivial, by show 4 < n; omega⟩
        · exact ⟨trivial, by show 3 < n; omega⟩
  complete n pkt c h := by
    obtain ⟨-, hrank⟩ := h
    change 2 * c.qp.rq.live.length + 7 ≤ n at hrank
    rcases respDoComplete_cases c pkt with ⟨-, heq⟩ | ⟨w, cq, -, heq | heq⟩ <;> rw [heq]
    · exact ⟨trivial, by show 3 < n; omega⟩
    · rcases respAfterCqe_cases c pkt with ⟨herr, hs⟩ | hs | hs | hs <;> rw [hs]
      · refine ⟨trivial, ?_⟩
        -- a flushed WQE leaves the queue: here the rank falls though the state comes again
        have hless := flushRank_retire c cq
          (c.out ++ [.recvCqe (makeRecvCqe c.qp w pkt) (recvSolicited pkt)])
        unfold respRank
        dsimp only
        rw [if_pos (show (retireRecvWqe c).qp.resp.state = .error from herr)]
        exact Nat.lt_of_lt_of_le hless hrank
      · exact ⟨trivial, by show 2 < n; omega⟩
      · exact ⟨trivial, by show 4 < n; omega⟩
      · exact ⟨trivial, by show 3 < n; omega⟩
    · exact ⟨trivial, by show 2 < n; omega⟩
  readReply n p c h := by
    obtain ⟨-, hrank⟩ := h
    change 5 ≤ n at hrank
    rcases readReply_next c p with hs | hs | hs <;> rw [hs]
    · exact ⟨trivial, by show 4 < n; omega⟩
    · exact ⟨trivial, by show 2 < n; omega⟩
    · exact ⟨trivial, by show 3 < n; omega⟩
  acknowledge n p c h := ⟨trivial, h.2⟩
  cleanup n pkt c h := ⟨trivial, h.2⟩
  duplicateRequest n p c h := by
    obtain ⟨-, hrank⟩ := h
    change 6 ≤ n at hrank
    by_cases hread : p.mask.read
    · rw [duplicateRequest_of_read c hread]
      rcases duplicateRead_cases c p with heq | ⟨i, res, -, -, -, heq⟩ <;> rw [heq]
      · exact ⟨trivial, by show 3 < n; omega⟩
      · exact ⟨trivial, by show 5 < n; omega⟩
    · rw [(duplicateRequest_frame c p (by simpa using hread)).1]
      exact ⟨trivial, by show 3 < n; omega⟩
  errPsn n p c h := ⟨trivial, h.2⟩
  errAc n state pkt c syn status hclass h := by
    obtain ⟨-, hrank⟩ := h
    refine ⟨trivial, ?_⟩
    show 2 * c.qp.rq.live.length + 7 < n
    cases state <;> first | exact hrank | cases hclass
  errD1e n pkt c h := by
    obtain ⟨hmove, hrank⟩ := h
    change 2 * c.qp.rq.live.length + 15 ≤ n at hrank
    unfold doClassD1eError
    split
    · dsimp only
      split
      · exact ⟨trivial, by show 2 * c.qp.rq.live.length + 7 < n; omega⟩
      · exact ⟨trivial, by show 3 < n; omega⟩
    · next hsrq =>
      -- without a WQE the loop would come back here for ever
      have hwqe : c.qp.resp.wqe.isSome := by
        rw [Option.isSome_iff_ne_none]
        exact fun hnone => hmove ⟨by simpa using hsrq, hnone⟩
      have hlen := setRecvWqe_length c fun w =>
        { w with dma := { w.dma with resid := w.dma.length, curSge := 0, sgeOffset := 0 } }
      rw [if_pos hwqe]
      refine ⟨fun p _ hw => ?_, ?_⟩
      · obtain ⟨-, -, -, K, hK, -⟩ := hw
        cases hK
      · unfold respRank
        dsimp only
        rw [if_neg, hlen]
        · omega
        -- with the last opcode forgotten, no packet is out of sequence
        · rintro ⟨p, -, hd1e⟩
          unfold checkOpSeq at hd1e
          dsimp only at hd1e
          split at hd1e
          · split at hd1e <;> cases hd1e
          · split at hd1e <;> cases hd1e
          · cases hd1e
  errRnr n p c h := ⟨trivial, h.2⟩
  errRkey n pkt c h := by
    obtain ⟨-, hrank⟩ := h
    change 2 * c.qp.rq.live.length + 8 ≤ n at hrank
    unfold respErrRkey
    split
    · exact ⟨trivial, hrank⟩
    · dsimp only
      split
      · exact ⟨trivial, hrank⟩
      · exact ⟨trivial, by show 3 < n; omega⟩
  errLength n pkt c h := by
    obtain ⟨-, hrank⟩ := h
    change 2 * c.qp.rq.live.length + 8 ≤ n at hrank
    unfold respErrLength
    split
    · exact ⟨trivial, hrank⟩
    · split
      · exact ⟨trivial, hrank⟩
      · exact ⟨trivial, by show 3 < n; omega⟩
  toError n state pkt c hstate h := by
    refine ⟨trivial, ?_⟩
    rcases hstate with rfl | ⟨-, rfl | rfl⟩ <;> exact h.2
  leave _ _ _ _ _ _ := trivial
  error _ _ _ _ := trivial
  reset _ _ _ _ := trivial

/-! ### The wedge is never left -/

/-- The call is on its way into the wedge, or in it. -/
def Circles (s : RespCfg) : Prop :=
  match s.state with
  | .getReq => s.c.qp.resp.state ≠ .error ∧ s.c.qp.resp.res = none ∧
    ∃ p, s.c.qp.reqPkts.head? = some p ∧ Admitted s.c p ∧ Wedged s.c p
  | .chkPsn => ∃ p, s.pkt = some p ∧ Admitted s.c p ∧ Wedged s.c p
  | .chkOpSeq | .errMissingOpcodeLastD1e => ∃ p, s.pkt = some p ∧ Wedged s.c p
  | _ => False

theorem getReq_of_head (pkt : Option Pkt) (herr : c.qp.resp.state ≠ .error)
    (hp : c.qp.reqPkts.head? = some p) :
    getReq c pkt = (if c.qp.resp.res.isSome then .readReply else .chkPsn, some p, c) := by
  obtain ⟨pkts, hpkts⟩ := List.head?_eq_some_iff.1 hp
  unfold getReq
  rw [if_neg herr, hpkts]

theorem respCheckPsn_admitted (huc : c.qp.type = .uc) (h : Admitted c p) :
    ∃ drop, respCheckPsn c p = (.chkOpSeq, { c with qp.resp.dropMsg := drop }) := by
  unfold respCheckPsn
  rw [huc]
  dsimp only
  split
  · next hout =>
    rw [if_pos (h hout)]
    exact ⟨false, rfl⟩
  · exact ⟨c.qp.resp.dropMsg, rfl⟩

theorem doClassD1eError_wedged (h : Wedged c p) :
    doClassD1eError c = (.chkOpSeq, { c with qp.resp.mr := none }) := by
  obtain ⟨-, hsrq, hwqe, -⟩ := h
  unfold doClassD1eError
  rw [if_neg (by simp [hsrq])]
  rw [if_neg (by simp [hwqe])]

theorem Circles.step {s : RespCfg} (h : Circles s) : ∃ s', respStep s = .inl s' ∧ Circles s' := by
  obtain ⟨state, pkt, c⟩ := s
  cases state with
  | getReq =>
    obtain ⟨herr, hres, p, hp, hadm, hwedge⟩ := h
    refine ⟨⟨.chkPsn, some p, c⟩, ?_, p, rfl, hadm, hwedge⟩
    unfold respStep
    rw [getReq_of_head pkt herr hp, hres]
    rfl
  | chkPsn =>
    obtain ⟨p, rfl, hadm, hwedge⟩ := h
    obtain ⟨drop, hpsn⟩ := respCheckPsn_admitted hwedge.1 hadm
    refine ⟨⟨.chkOpSeq, some p, { c with qp.resp.dropMsg := drop }⟩, ?_, p, rfl, hwedge⟩
    show RespCfg.goto _ (respCheckPsn c p) = _
    rw [hpsn]
    rfl
  | chkOpSeq =>
    obtain ⟨p, rfl, hwedge⟩ := h
    refine ⟨⟨.errMissingOpcodeLastD1e, some p, c⟩, ?_, p, rfl, hwedge⟩
    show RespCfg.goto _ (checkOpSeq c p) = _
    rw [hwedge.checkOpSeq]
    rfl
  -- without a WQE `resp.opcode` is kept, and the check fails again
  | errMissingOpcodeLastD1e =>
    obtain ⟨p, rfl, hwedge⟩ := h
    refine ⟨⟨.chkOpSeq, some p, { c with qp.resp.mr := none }⟩, ?_, p, rfl, hwedge⟩
    show RespCfg.goto _ (doClassD1eError c) = _
    rw [doClassD1eError_wedged hwedge]
    rfl
  | _ => exact h.elim

theorem rxeResponder_eq_run (fuel : ℕ) (hvalid : c.qp.valid)
    (hreset : c.qp.resp.state ≠ .reset) :
    rxeResponder fuel c = Loop.run respStep fuel
      ⟨.getReq, none, { c with qp.resp.aethSyndrome := aethAckUnlimited }⟩ := by
  unfold rxeResponder
  rw [if_neg (by simp [hvalid]), if_neg hreset]

theorem Spins.diverges (h : Spins c) (fuel : ℕ) : rxeResponder fuel c = none := by
  obtain ⟨hvalid, hreset, herr, hres, p, hp, hadm, hwedge⟩ := h
  rw [rxeResponder_eq_run fuel hvalid hreset]
  exact Loop.run_eq_none (fun s hs => hs.step) fuel
    (show Circles _ from ⟨herr, hres, p, hp, hadm, hwedge⟩)

/-- A call of `rxe_responder` returns unless it spins: on a UC QP without an SRQ, where a
message is in progress, no receive WQE is in use, and the next packet is admitted by
`check_psn` but does not continue the message. -/
theorem responder_halts_iff (c : Ctx) : (∃ fuel r, rxeResponder fuel c = some r) ↔ ¬ Spins c := by
  constructor
  · rintro ⟨fuel, r, hr⟩ hspin
    rw [hspin.diverges fuel] at hr
    cases hr
  · intro hspin
    by_cases hvalid : c.qp.valid
    · by_cases hreset : c.qp.resp.state = .reset
      · refine ⟨1, (false, respReset { c with qp.resp.aethSyndrome := aethAckUnlimited }), ?_⟩
        unfold rxeResponder
        rw [if_neg (by simp [hvalid]), if_pos hreset]
        rfl
      · have hmove : Moving .getReq none { c with qp.resp.aethSyndrome := aethAckUnlimited } :=
          fun herr hres p hp hadm hwedge =>
            hspin ⟨hvalid, hreset, herr, hres, p, hp, hadm, hwedge⟩
        -- the rank falls with every pass
        have hlow : ∀ s s' : RespCfg, Moving s.state s.pkt s.c → respStep s = .inl s' →
            Moving s'.state s'.pkt s'.c ∧
              respRank s'.state s'.pkt s'.c < respRank s.state s.pkt s.c := by
          intro s s' hs hstep
          have hlow := respHalts.step (s := s) ⟨hs, Nat.le_refl (respRank s.state s.pkt s.c)⟩
          rw [hstep] at hlow
          exact hlow
        have hrun := Loop.run_isSome (I := fun s : RespCfg => Moving s.state s.pkt s.c)
          (fun s => respRank s.state s.pkt s.c) hlow
          (s := ⟨.getReq, none, { c with qp.resp.aethSyndrome := aethAckUnlimited }⟩) hmove
          (Nat.lt_succ_self _)
        rw [← rxeResponder_eq_run _ hvalid hreset] at hrun
        exact ⟨_, Option.isSome_iff_exists.1 hrun⟩
    · exact ⟨0, (false, { c with qp.resp.aethSyndrome := aethAckUnlimited }), by
        unfold rxeResponder
        rw [if_pos (by simpa using hvalid)]⟩

/-- A UC QP to which RDMA writes are allowed. -/
def ucWriteQp : Ctx where
  qp :=
    { type := .uc, sq := ⟨[], []⟩, rq := ⟨[{}], [{}]⟩, mtu := 2
      attr := { qpAccessFlags := [.remoteWrite] }, resp := { state := .ready } }
  dev :=
    { mem := fun i => if i = 1 then some { localRegion with access := [.remoteWrite] } else none }

/-- The first packet of a write of four bytes. -/
def ucWriteFirst : Pkt :=
  { opcode := .ucRdmaWriteFirst, reth := ⟨64, 256, 4⟩, payload := [1, 2] }

/-- A message of one packet, behind a lost one. -/
def ucSendOnly : Pkt := { opcode := .ucSendOnly, psn := 2 }

/-- The next call does not return. -/
def RespSys.spins : RespSys → Bool
  | .idle c => decide (Spins c)
  | .busy _ => false

open Trace in
/-- The end of the write is lost.  The call that takes up the next message never returns,
although a receive is posted for it. -/
theorem responder_spins_on_lost_write :
    ∃ c, Reach respPass (fun _ _ => True) (.idle ucWriteQp) (.idle c) ∧
      ∀ fuel, rxeResponder fuel c = none := by
  have hrun : ((List.foldlM respPass (.idle ucWriteQp)
      (.recv ucWriteFirst :: .call :: List.replicate 10 .pass ++ [.recv ucSendOnly])).map
        RespSys.spins) = some true := by
    decide +kernel
  obtain ⟨sys, hsys, hspin⟩ := Option.map_eq_some_iff.1 hrun
  have hreach : Reach respPass (fun _ _ => True) (.idle ucWriteQp) sys :=
    Reach.start.foldlM _ (fun _ _ _ => trivial) hsys
  cases sys with
  | busy s => cases hspin
  | idle c => exact ⟨c, hreach, (of_decide_eq_true hspin).diverges⟩

end Rxe
