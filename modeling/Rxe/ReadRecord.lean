/-
The record of a read in the ring of responder resources.

A read takes the resource at `resHead` when it is answered for the first time, and so does the
response to an atomic.  Everything else leaves the record in a resource as it is; replays only
rewind the part that is not compared with a duplicate.

* `respStep_ring` — a pass keeps all records, or takes the resource at `resHead`;
* `Recorded` — the record of a read, with the number of resources taken since;
* `recorded_reach` — in every run the record is kept as long as fewer resources were taken
  than the ring has.
-/
import Rxe.ReadAnswer

namespace Rxe

open Trace

/-! ### Resources that are taken and resources that are kept -/

/-- Two resources with the same record; the PSN of a kept response may differ. -/
structure SameRecord (r r' : RespRes) : Prop where
  type : r'.type = r.type
  firstPsn : r'.firstPsn = r.firstPsn
  lastPsn : r'.lastPsn = r.lastPsn
  length : r'.length = r.length
  rkey : r'.rkey = r.rkey
  ptr : r'.ptr = r.ptr ∨ ∃ ack, r.ptr = .skb ack

theorem SameRecord.refl (r : RespRes) : SameRecord r r := ⟨rfl, rfl, rfl, rfl, rfl, Or.inl rfl⟩

theorem SameRecord.trans {r₁ r₂ r₃ : RespRes} (h : SameRecord r₁ r₂) (h' : SameRecord r₂ r₃) :
    SameRecord r₁ r₃ where
  type := h'.type.trans h.type
  firstPsn := h'.firstPsn.trans h.firstPsn
  lastPsn := h'.lastPsn.trans h.lastPsn
  length := h'.length.trans h.length
  rkey := h'.rkey.trans h.rkey
  ptr := by
    rcases h.ptr with heq | hskb
    · rcases h'.ptr with heq' | ⟨ack, hskb⟩
      · exact Or.inl (heq'.trans heq)
      · exact Or.inr ⟨ack, heq.symm.trans hskb⟩
    · exact Or.inr hskb

/-- The resource at `j` keeps its record. -/
def KeptAt (c c' : Ctx) (j : ℕ) : Prop :=
  ∀ r, c.qp.resp.resources[j]? = some r → ∃ r', c'.qp.resp.resources[j]? = some r' ∧ SameRecord r r'

/-- All records are kept. -/
structure Alters (c c' : Ctx) : Prop where
  attr : c'.qp.attr.maxRdAtomic = c.qp.attr.maxRdAtomic
  mtu : c'.qp.mtu = c.qp.mtu
  head : c'.qp.resp.resHead = c.qp.resp.resHead
  kept : ∀ j, KeptAt c c' j

/-- The resource at `resHead` is taken. -/
structure Takes (c c' : Ctx) : Prop where
  attr : c'.qp.attr.maxRdAtomic = c.qp.attr.maxRdAtomic
  mtu : c'.qp.mtu = c.qp.mtu
  head : c'.qp.resp.resHead = (rxeAdvanceRespResource c).qp.resp.resHead
  kept : ∀ j, j ≠ c.qp.resp.resHead → KeptAt c c' j

section Ring

variable {c c' c'' : Ctx}

theorem Alters.same (hattr : c'.qp.attr.maxRdAtomic = c.qp.attr.maxRdAtomic)
    (hmtu : c'.qp.mtu = c.qp.mtu) (hhead : c'.qp.resp.resHead = c.qp.resp.resHead)
    (hres : c'.qp.resp.resources = c.qp.resp.resources) : Alters c c' where
  attr := hattr
  mtu := hmtu
  head := hhead
  kept j r hr := ⟨r, by rw [hres]; exact hr, .refl r⟩

theorem Alters.trans (h : Alters c c') (h' : Alters c' c'') : Alters c c'' where
  attr := h'.attr.trans h.attr
  mtu := h'.mtu.trans h.mtu
  head := h'.head.trans h.head
  kept j r hr := by
    obtain ⟨r', hr', hsame⟩ := h.kept j r hr
    obtain ⟨r'', hr'', hsame'⟩ := h'.kept j r' hr'
    exact ⟨r'', hr'', hsame.trans hsame'⟩

theorem Takes.alters (h : Takes c c') (h' : Alters c' c'') : Takes c c'' where
  attr := h'.attr.trans h.attr
  mtu := h'.mtu.trans h.mtu
  head := h'.head.trans h.head
  kept j hj r hr := by
    obtain ⟨r', hr', hsame⟩ := h.kept j hj r hr
    obtain ⟨r'', hr'', hsame'⟩ := h'.kept j r' hr'
    exact ⟨r'', hr'', hsame.trans hsame'⟩

theorem alters_setRes (c : Ctx) (i : ℕ) (f : RespRes → RespRes)
    (hf : ∀ r, c.qp.resp.resources[i]? = some r → SameRecord r (f r)) :
    Alters c (setRes c i f) where
  attr := rfl
  mtu := rfl
  head := rfl
  kept j r hr := by
    show ∃ r', (c.qp.resp.resources.modify i f)[j]? = some r' ∧ _
    rw [List.getElem?_modify, hr]
    show ∃ r', some (if i = j then f r else r) = some r' ∧ _
    by_cases hij : i = j
    · rw [if_pos hij]
      exact ⟨f r, rfl, hf r (hij ▸ hr)⟩
    · rw [if_neg hij]
      exact ⟨r, rfl, .refl r⟩

theorem takes_advance (c : Ctx) (f : RespRes → RespRes) :
    Takes c (rxeAdvanceRespResource (setRes c c.qp.resp.resHead f)) where
  attr := rfl
  mtu := rfl
  head := rfl
  kept j hj r hr := by
    refine ⟨r, ?_, .refl r⟩
    show (c.qp.resp.resources.modify c.qp.resp.resHead f)[j]? = some r
    rw [List.getElem?_modify, hr]
    exact congrArg some (if_neg (Ne.symm hj))

theorem initReadRes_takes (c : Ctx) (p : Pkt) : Takes c (initReadRes c p) :=
  (takes_advance c (RespRes.startRead c.qp p)).alters (.same rfl rfl rfl rfl)

theorem readReplyRes_alters (c : Ctx) (p : Pkt) (i : ℕ) (r : RespRes) :
    Alters c (readReplyRes c p i r).2 := by
  have hstarted : Alters c (setRes c i RespRes.started) :=
    alters_setRes c i _ fun r _ => ⟨rfl, rfl, rfl, rfl, rfl, Or.inl rfl⟩
  have hadvance : ∀ n, Alters c (setRes (setRes c i RespRes.started) i (RespRes.advance n)) :=
    fun n => hstarted.trans (alters_setRes _ i _ fun r _ => ⟨rfl, rfl, rfl, rfl, rfl, Or.inl rfl⟩)
  obtain ⟨skb, es, -, -, hc | ⟨n, hc | hc⟩⟩ := readReplyRes_cases c p i r <;> rw [hc]
  · exact hstarted.trans (.same rfl rfl rfl rfl)
  · exact (hadvance n).trans (.same rfl rfl rfl rfl)
  · exact (hadvance n).trans (.same rfl rfl rfl rfl)

theorem readReply_ring (c : Ctx) (p : Pkt) :
    (c.qp.resp.res ≠ none → Alters c (readReply c p).2) ∧
      (c.qp.resp.res = none → Alters (initReadRes c p) (readReply c p).2) := by
  have hgo : ∀ d : Ctx, (if c.qp.resp.res.isNone then initReadRes c p else c) = d →
      Alters d (readReply c p).2 := by
    intro d hd
    unfold readReply
    dsimp only
    rw [hd]
    split
    · exact .same rfl rfl rfl rfl
    · split
      · exact .same rfl rfl rfl rfl
      · exact readReplyRes_alters ..
  constructor
  · intro hres
    exact hgo c (if_neg (by simpa using hres))
  · intro hres
    exact hgo _ (if_pos (by rw [hres]; rfl))

end Ring

/-! ### Passes -/

/-- A read or an atomic is executed: a new read is answered for the first time, or the response
to an atomic is sent. -/
def RespCfg.takes (s : RespCfg) : Bool :=
  match s.state, s.pkt with
  | .readReply, some _ => s.c.qp.resp.res.isNone
  | .acknowledge, some p =>
    s.c.qp.type = .rc && s.c.qp.resp.aethSyndrome = aethAckUnlimited && p.mask.atomic
  | _, _ => false

/-- What a pass does to the ring. -/
def RingStep (s : RespCfg) (c : Ctx) : Prop := Alters s.c c ∨ s.takes ∧ Takes s.c c

theorem acknowledge_ring (c : Ctx) (p : Pkt) :
    RingStep ⟨.acknowledge, some p, c⟩ (acknowledge c p) := by
  have hack : ∀ syn psn, Alters c (sendAck c p syn psn) := by
    intro syn psn
    obtain ⟨skb, es, -, hc⟩ := sendAck_frame c p syn psn
    rw [hc]
    exact .same rfl rfl rfl rfl
  unfold acknowledge
  split
  · exact Or.inl (.same rfl rfl rfl rfl)
  · next hrc =>
    split
    · exact Or.inl (hack _ _)
    · next hsyn =>
      split
      · next hat =>
        rcases sendAtomicAck_frame c p aethAckUnlimited with
          ⟨skb, hc⟩ | ⟨skb, es, ack, -, hc⟩ <;> rw [hc]
        · exact Or.inl (.same rfl rfl rfl rfl)
        · refine Or.inr ⟨?_, (takes_advance c _).alters (.same rfl rfl rfl rfl)⟩
          have hrc : c.qp.type = .rc := not_not.1 hrc
          have hsyn : c.qp.resp.aethSyndrome = aethAckUnlimited := not_not.1 hsyn
          simp [RespCfg.takes, hrc, hsyn, hat]
      · split
        · exact Or.inl (hack _ _)
        · exact Or.inl (.same rfl rfl rfl rfl)

/-- A duplicate keeps the records: a read rewinds its resource, a kept response gets a new PSN. -/
theorem duplicateRequest_alters (c : Ctx) (p : Pkt) : Alters c (duplicateRequest c p).2 := by
  by_cases hread : p.mask.read
  · rw [duplicateRequest_of_read c hread]
    rcases duplicateRead_cases c p with hc | ⟨i, res, -, -, -, hc⟩ <;> rw [hc]
    · exact .same rfl rfl rfl rfl
    · have hrewind : Alters c (setRes c i (replayRes p)) :=
        alters_setRes c i _ fun r _ => ⟨rfl, rfl, rfl, rfl, rfl, Or.inl rfl⟩
      exact hrewind.trans (.same rfl rfl rfl rfl)
  · unfold duplicateRequest
    split
    · split
      · obtain ⟨skb, es, -, hc⟩ := sendAck_frame c p aethAckUnlimited (psnSub c.qp.resp.psn 1)
        rw [hc]
        exact .same rfl rfl rfl rfl
      · exact .same rfl rfl rfl rfl
    · obtain ⟨skb, hskb⟩ := takeSkb_eq c
      have hcase := duplicateAtomic_cases c p
      generalize duplicateAtomic c p = d at hcase
      cases hcase with
      | resent i r ack _ hr hptr _ =>
        rw [hskb]
        -- only a resource with a kept response is written
        refine (alters_setRes c i (fun res => { res with ptr := .skb { ack with
          psn := psnSub c.qp.resp.psn 1 } }) fun r' hr' => ?_).trans (.same rfl rfl rfl rfl)
        cases hr.symm.trans hr'
        exact ⟨rfl, rfl, rfl, rfl, rfl, Or.inr ⟨ack, hptr⟩⟩
      | dropped d hd _ =>
        rcases hd with hd | hd <;> rw [hd]
        · exact .same rfl rfl rfl rfl
        · rw [hskb]
          exact .same rfl rfl rfl rfl
      | wild => exact .same rfl rfl rfl rfl

/-- A pass keeps all records, or takes the resource at `resHead`. -/
theorem respStep_ring (s : RespCfg) : RingStep s (RespSys.ofPass (respStep s)).ctx := by
  obtain ⟨pkt', hchange⟩ := respStep_ctx s
  obtain ⟨state, pkt, c⟩ := s
  by_cases hrings : state.rings
  · cases pkt with
    | none =>
      cases state with
      | readReply | acknowledge | duplicateRequest => exact Or.inl (.same rfl rfl rfl rfl)
      | _ => cases hrings
    | some p =>
      cases state with
      | readReply =>
        cases hres : c.qp.resp.res with
        | none =>
          refine Or.inr ⟨?_, (initReadRes_takes c p).alters ((readReply_ring c p).2 hres)⟩
          show c.qp.resp.res.isNone = true
          rw [hres]
          rfl
        | some i => exact Or.inl ((readReply_ring c p).1 (by rw [hres]; exact nofun))
      | acknowledge => exact acknowledge_ring c p
      | duplicateRequest => exact Or.inl (duplicateRequest_alters c p)
      | _ => cases hrings
  · -- the other passes do not write the ring
    left
    generalize (RespSys.ofPass (respStep ⟨state, pkt, c⟩)).ctx = c' at hchange
    cases hchange with
    | getReq _ =>
      obtain ⟨pkts, hc⟩ := getReq_frame c pkt
      rw [hc]
      exact .same rfl rfl rfl rfl
    | @execute p _ =>
      rcases execute_cases c p with ⟨-, heq⟩ | ⟨_, _, _, _, _, _, d, rfl, ⟨err, -, heq⟩ | heq⟩ <;>
        rw [heq] <;> exact .same rfl rfl rfl rfl
    | complete _ =>
      rcases respDoComplete_cases c pkt with ⟨-, heq⟩ | ⟨wqe, cq, -, heq | heq⟩ <;> rw [heq] <;>
        exact .same rfl rfl rfl rfl
    | cleanup _ | reset _ => exact .same rfl rfl rfl rfl
    | error _ =>
      obtain ⟨req, sq, respPkts, cq, es, -, hc⟩ :=
        rxeQpError_frame { c with qp.resp.gotoError := false }
      rw [hc]
      exact .same rfl rfl rfl rfl
    | work _ _ _ _ hwork =>
      obtain ⟨rq, srq, resp, skb, es, rfl, -, -, hring⟩ := hwork
      obtain ⟨hhead, hres⟩ := Prod.mk.inj (hring (by simpa using hrings))
      exact .same rfl rfl hhead hres

theorem change_alters {a : RespAct} {f : Ctx → Ctx} (hf : a.change = some f) (c : Ctx) :
    Alters c (f c) := by
  rcases RespAct.change_frame hf c with hc | ⟨pkts, rq, srq, dev, skb, cq, es, -, hc⟩
  · obtain ⟨req, sq, respPkts, cq, es, -, herr⟩ := rxeQpError_frame c
    rw [hc, herr]
    exact .same rfl rfl rfl rfl
  · rw [hc]
    exact .same rfl rfl rfl rfl

theorem respEnter_alters (c : Ctx) : Alters c (respEnter c).ctx := by
  unfold respEnter
  dsimp only
  split <;> exact .same rfl rfl rfl rfl

/-! ### Runs -/

/-- The record of the read `p` that was answered from `ptr`. -/
structure ReadRecord (mtu : ℕ) (p : Pkt) (ptr : ResPtr) (r : RespRes) : Prop where
  type : r.type = .read
  firstPsn : r.firstPsn = p.psn
  lastPsn : r.lastPsn = (p.psn + (p.reth.len + mtu - 1) % 2 ^ 32 / mtu + 2 ^ 32 - 1) % 2 ^ 32
  length : r.length = p.reth.len
  rkey : r.rkey = p.reth.rkey
  ptr : r.ptr = ptr

/-- The region a read is answered from. -/
def Qp.readPtr (qp : Qp) : ResPtr :=
  match qp.resp.mr with
  | none => .null
  | some m => .mr m

theorem ReadRecord.same {mtu : ℕ} {p : Pkt} {qp : Qp} {r r' : RespRes}
    (h : ReadRecord mtu p qp.readPtr r) (hsame : SameRecord r r') :
    ReadRecord mtu p qp.readPtr r' where
  type := hsame.type.trans h.type
  firstPsn := hsame.firstPsn.trans h.firstPsn
  lastPsn := hsame.lastPsn.trans h.lastPsn
  length := hsame.length.trans h.length
  rkey := hsame.rkey.trans h.rkey
  ptr := by
    rcases hsame.ptr with heq | ⟨ack, hskb⟩
    · exact heq.trans h.ptr
    · have hptr := h.ptr.symm.trans hskb
      unfold Qp.readPtr at hptr
      split at hptr <;> cases hptr

/-- The resource at `j` was taken for the read `p`, and `k` reads and atomics were executed
since; not all of these have taken a resource. -/
structure Recorded (n m : ℕ) (p : Pkt) (ptr : ResPtr) (j k : ℕ) (c : Ctx) : Prop where
  attr : c.qp.attr.maxRdAtomic = n
  mtu : c.qp.mtu = m
  head : ∃ taken ≤ k, c.qp.resp.resHead = (j + 1 + taken) % n
  kept : k < n → ∃ r, c.qp.resp.resources[j]? = some r ∧ ReadRecord m p ptr r

section Recorded

variable {n mtu j k : ℕ} {p : Pkt} {qp : Qp} {c c' : Ctx}

theorem Recorded.alters (h : Recorded n mtu p qp.readPtr j k c) (hc : Alters c c') :
    Recorded n mtu p qp.readPtr j k c' where
  attr := hc.attr.trans h.attr
  mtu := hc.mtu.trans h.mtu
  head := by
    rw [hc.head]
    exact h.head
  kept hk := by
    obtain ⟨r, hr, hrec⟩ := h.kept hk
    obtain ⟨r', hr', hsame⟩ := hc.kept j r hr
    exact ⟨r', hr', hrec.same hsame⟩

theorem Recorded.later (h : Recorded n mtu p qp.readPtr j k c) :
    Recorded n mtu p qp.readPtr j (k + 1) c where
  attr := h.attr
  mtu := h.mtu
  head := by
    obtain ⟨taken, hle, hhead⟩ := h.head
    exact ⟨taken, Nat.le_succ_of_le hle, hhead⟩
  kept hk := h.kept (Nat.lt_of_succ_lt hk)

theorem advance_head {x : ℕ} (hn : 0 < n) (hattr : c.qp.attr.maxRdAtomic = n)
    (hhead : c.qp.resp.resHead = x % n) :
    (rxeAdvanceRespResource c).qp.resp.resHead = (x + 1) % n := by
  show (if c.qp.resp.resHead + 1 = c.qp.attr.maxRdAtomic then 0 else c.qp.resp.resHead + 1) = _
  rw [hattr, hhead, Nat.add_mod x 1 n]
  have hlt := Nat.mod_lt x hn
  split
  · next hend =>
    rcases Nat.lt_or_ge 1 n with hone | hone
    · rw [Nat.mod_eq_of_lt hone, hend, Nat.mod_self]
    · obtain rfl : n = 1 := by omega
      rw [Nat.mod_one]
  · next hend =>
    rw [Nat.mod_eq_of_lt (show 1 < n by omega), Nat.mod_eq_of_lt (show x % n + 1 < n by omega)]

theorem Recorded.takes (h : Recorded n mtu p qp.readPtr j k c) (hj : j < n) (hc : Takes c c') :
    Recorded n mtu p qp.readPtr j (k + 1) c' where
  attr := hc.attr.trans h.attr
  mtu := hc.mtu.trans h.mtu
  head := by
    obtain ⟨taken, hle, hhead⟩ := h.head
    refine ⟨taken + 1, Nat.succ_le_succ hle, ?_⟩
    rw [hc.head, advance_head (by omega) h.attr hhead]
    rfl
  kept hk := by
    obtain ⟨taken, hle, hhead⟩ := h.head
    obtain ⟨r, hr, hrec⟩ := h.kept (by omega)
    -- the ring has not come round to the resource yet
    have hne : j ≠ c.qp.resp.resHead := by
      intro heq
      rw [hhead] at heq
      rcases Nat.lt_or_ge (j + 1 + taken) n with hlt | hge
      · rw [Nat.mod_eq_of_lt hlt] at heq
        omega
      · rw [Nat.mod_eq_sub_mod hge, Nat.mod_eq_of_lt (by omega)] at heq
        omega
    obtain ⟨r', hr', hsame⟩ := hc.kept j hne r hr
    exact ⟨r', hr', hrec.same hsame⟩

/-- The number of reads and atomics executed. -/
def countAccess (k : ℕ) (s : RespCfg) : ℕ := if s.takes then k + 1 else k

/-- The record is kept while the ring has not come round. -/
theorem recorded_reach {sys sys' : RespSys} {k' : ℕ} (hj : j < n)
    (h₀ : Recorded n mtu p qp.readPtr j k sys.ctx)
    (hreach : Reach (ghostPass countAccess fun k _ _ => k) (fun _ _ => True) (sys, k) (sys', k')) :
    Recorded n mtu p qp.readPtr j k' sys'.ctx := by
  refine Reach.inv (I := fun x : RespSys × ℕ => Recorded n mtu p qp.readPtr j x.2 x.1.ctx) h₀
    ?_ hreach
  rintro ⟨sys, k⟩ a x h - hstep
  obtain ⟨sys', hpass, rfl⟩ := Option.map_eq_some_iff.1 hstep
  obtain ⟨c, rfl, rfl, rfl⟩ | ⟨s, rfl, rfl, rfl⟩ | ⟨f, hf, rfl⟩ := respPass_cases hpass
  · exact h.alters (respEnter_alters c)
  · rcases respStep_ring s with hkeep | ⟨htakes, htake⟩
    · have hsame : Recorded n mtu p qp.readPtr j k (RespSys.ofPass (respStep s)).ctx :=
        h.alters hkeep
      show Recorded n mtu p qp.readPtr j (countAccess k s) _
      unfold countAccess
      split
      · exact hsame.later
      · exact hsame
    · show Recorded n mtu p qp.readPtr j (countAccess k s) _
      rw [countAccess, if_pos htakes]
      exact Recorded.takes h hj htake
  · rw [RespSys.ctx_map]
    have hsame := h.alters (change_alters hf sys.ctx)
    cases sys <;> cases a <;> first | exact hsame | cases hf

end Recorded

end Rxe
