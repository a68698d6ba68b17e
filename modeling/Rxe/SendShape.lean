/-
The send queue of an RC QP and the place of the requester in it.

The WQEs in front of `req.wqe_index` have been sent and wait for their acknowledgement, the
one at the index is being sent or is the next to be, and those behind it have not been
touched (`Inside`).  There is one exception: an acknowledgement can retire the WQE the
requester is still sending from, and `req.wqe_index` stays on the retired slot (`Passed`).

* `Shape` — one of the two holds, and only a send or a write is ever sent in part;
* `Shape.pop`, `Shape.sendLast`, `Shape.push`, `Shape.reqRetry` — what the tasks do to the
  queue keeps it;
* `Carried` — the WQE of the packet the requester is building.
-/
import Rxe.SendRule

namespace Rxe

variable {c c' : Ctx} {f : SendWqe → SendWqe} {r : Bool × Ctx} {w : SendWqe} {a : SendAct}

/-! ### Reads and atomics -/

/-- The WQE can be sent with a credit only: it is a read or an atomic. -/
def SendWqe.costly (w : SendWqe) : Bool := (wrOpcodeMask w.ibwr.opcode .rc).atomicOrRead

theorem nextOpcode_costly {mtu : ℕ} {prev : Option Opcode} {opcode : Opcode}
    (h : nextOpcode .rc mtu prev w = some opcode) :
    (rxeOpcodeMask opcode).readOrAtomic = w.costly := by
  unfold nextOpcode nextOpcodeRc at h
  unfold SendWqe.costly
  dsimp only at h
  -- the segments of a message have the mask of its kind
  have hsegment : ∀ first middle last only fits, ∀ b,
      (rxeOpcodeMask first).readOrAtomic = b → (rxeOpcodeMask middle).readOrAtomic = b →
      (rxeOpcodeMask last).readOrAtomic = b → (rxeOpcodeMask only).readOrAtomic = b →
      (rxeOpcodeMask (segmentOpcode first middle last only prev fits)).readOrAtomic = b := by
    intro first middle last only fits b hfirst hmiddle hlast honly
    unfold segmentOpcode
    split
    · split
      · exact hlast
      · exact hmiddle
    · split
      · exact honly
      · exact hfirst
  split at h <;> cases h
  all_goals
    next hop =>
      rw [hop]
      first
      | rfl
      | exact hsegment _ _ _ _ _ _ rfl rfl rfl rfl

theorem end_of_readOrAtomic {opcode : Opcode} (h : (rxeOpcodeMask opcode).readOrAtomic) :
    (rxeOpcodeMask opcode).end_ := by
  cases opcode <;> first | rfl | cases h

/-! ### The place of the requester -/

/-- The requester is at index `i` of the queue. -/
structure Inside (q : RingBuf SendWqe) (i : ℕ) : Prop where
  le : i ≤ q.live.length
  before : ∀ j w, j < i → q.live[j]? = some w → w.state = .pending
  here : ∀ w, q.live[i]? = some w → w.state ≠ .pending ∧ w.state ≠ .done
  after : ∀ j w, i < j → q.live[j]? = some w → w.state = .posted

/-- The WQE the requester is sending from has been retired. -/
structure Passed (q : RingBuf SendWqe) (i : ℕ) : Prop where
  last : i + 1 = q.slots
  posted : ∀ w ∈ q.live, w.state = .posted
  cheap : ∀ w, q.get? i = some w → w.costly = false

/-- The send queue, with the requester at index `i`. -/
structure Shape (q : RingBuf SendWqe) (i : ℕ) : Prop where
  spare : q.free ≠ []
  busy : ∀ w ∈ q.live, w.state = .processing → w.costly = false
  place : Inside q i ∨ Passed q i

namespace Shape

variable {q : RingBuf SendWqe} {i : ℕ} {w : SendWqe}

theorem slots_pos (h : Shape q i) : q.live.length < q.slots := by
  have := List.length_pos_iff.2 h.spare
  unfold RingBuf.slots
  omega

theorem modify_spare (h : Shape q i) (j : ℕ) (f : SendWqe → SendWqe) :
    (q.modify j f).free ≠ [] := by
  have hlen : (q.modify j f).live.length + (q.modify j f).free.length =
      q.live.length + q.free.length := q.modify_slots j f
  rw [RingBuf.modify_live_length] at hlen
  have := List.length_pos_iff.2 h.spare
  exact List.length_pos_iff.1 (by omega)

theorem modify (h : Shape q i) (j : ℕ)
    (hf : ∀ w, (f w).state = w.state ∧ (f w).ibwr = w.ibwr) : Shape (q.modify j f) i := by
  have hcostly : ∀ w, (f w).costly = w.costly := fun w => by
    rw [SendWqe.costly, (hf w).2]
    rfl
  -- the slots keep their states, so the index stays where it was among them
  have hstate : ∀ (k : ℕ) (w : SendWqe), (q.modify j f).live[k]? = some w →
      ∃ w' : SendWqe, q.live[k]? = some w' ∧ w.state = w'.state := by
    intro k w hw
    rw [RingBuf.live_getElem?_modify] at hw
    split at hw
    · obtain ⟨w', hw', rfl⟩ := Option.map_eq_some_iff.1 hw
      exact ⟨w', hw', (hf w').1⟩
    · exact ⟨w, hw, rfl⟩
  refine ⟨h.modify_spare j f, fun w hw hbusy => ?_, ?_⟩
  · rcases RingBuf.mem_live_modify hw with hw | ⟨w', hw', -, rfl⟩
    · exact h.busy w hw hbusy
    · rw [hcostly]
      exact h.busy w' hw' ((hf w').1 ▸ hbusy)
  · rcases h.place with hin | hpass
    · left
      refine ⟨?_, fun k w hk hw => ?_, fun w hw => ?_, fun k w hk hw => ?_⟩
      · rw [RingBuf.modify_live_length]
        exact hin.le
      · obtain ⟨w', hw', hs⟩ := hstate k w hw
        exact hs.trans (hin.before k w' hk hw')
      · obtain ⟨w', hw', hs⟩ := hstate i w hw
        rw [hs]
        exact hin.here w' hw'
      · obtain ⟨w', hw', hs⟩ := hstate k w hw
        exact hs.trans (hin.after k w' hk hw')
    · right
      refine ⟨?_, fun w hw => ?_, fun w hw => ?_⟩
      · rw [RingBuf.modify_slots]
        exact hpass.last
      · rcases RingBuf.mem_live_modify hw with hw | ⟨w', hw', -, rfl⟩
        · exact hpass.posted w hw
        · exact (hf w').1.trans (hpass.posted w' hw')
      · rw [RingBuf.get?_modify] at hw
        split at hw
        · obtain ⟨w', hw', rfl⟩ := Option.map_eq_some_iff.1 hw
          exact (hcostly w').trans (hpass.cheap w' hw')
        · exact hpass.cheap w hw

theorem set (h : Shape q i) (hw : q.get? i = some w)
    (hibwr : (f w).ibwr = w.ibwr) (hstate : (f w).state ≠ .pending ∧ (f w).state ≠ .done)
    (hbusy : (f w).state = .processing → w.costly = false) : Shape (q.modify i f) i := by
  have hcostly : (f w).costly = w.costly := by
    rw [SendWqe.costly, hibwr]
    rfl
  refine ⟨h.modify_spare i f, fun w' hw' hproc => ?_, ?_⟩
  · rcases RingBuf.mem_live_modify hw' with hw' | ⟨w', -, hget, rfl⟩
    · exact h.busy w' hw' hproc
    · cases hw.symm.trans hget
      exact hcostly.trans (hbusy hproc)
  · rcases h.place with hin | hpass
    · left
      refine ⟨?_, fun k w' hk hw' => ?_, fun w' hw' => ?_, fun k w' hk hw' => ?_⟩
      · rw [RingBuf.modify_live_length]
        exact hin.le
      · rw [RingBuf.live_getElem?_modify, if_neg (by omega)] at hw'
        exact hin.before k w' hk hw'
      · rw [RingBuf.live_getElem?_modify, if_pos rfl] at hw'
        obtain ⟨w₀, hw₀, rfl⟩ := Option.map_eq_some_iff.1 hw'
        rw [RingBuf.get?_of_lt (List.getElem?_eq_some_iff.1 hw₀).1] at hw
        cases hw.symm.trans hw₀
        exact hstate
      · rw [RingBuf.live_getElem?_modify, if_neg (by omega)] at hw'
        exact hin.after k w' hk hw'
    · right
      -- the retired slot is not among the queued ones
      have hlive : (q.modify i f).live = q.live := by
        have := h.slots_pos
        have := hpass.last
        unfold RingBuf.modify
        rw [if_neg (by omega)]
      refine ⟨?_, fun w' hw' => ?_, fun w' hw' => ?_⟩
      · rw [RingBuf.modify_slots]
        exact hpass.last
      · rw [hlive] at hw'
        exact hpass.posted w' hw'
      · rw [RingBuf.get?_modify, if_pos rfl, hw] at hw'
        cases hw'
        exact hcostly.trans (hpass.cheap w hw)

theorem inside_of_busy (h : Shape q i) (hmem : w ∈ q.live)
    (hw : w.state = .pending ∨ w.state = .processing) : Inside q i := by
  rcases h.place with hin | hpass
  · exact hin
  · have hposted := hpass.posted w hmem
    rcases hw with hpend | hproc
    · rw [hposted] at hpend
      cases hpend
    · rw [hposted] at hproc
      cases hproc

/-- The oldest WQE is retired. -/
theorem pop {rest : List SendWqe} (h : Shape q i) (hlive : q.live = w :: rest)
    (hw : w.state = .pending ∨ w.state = .processing) : Shape q.pop (q.rebase i) := by
  have hslots := h.slots_pos
  have hin := h.inside_of_busy (by rw [hlive]; exact List.mem_cons_self) hw
  have hpop := RingBuf.pop_live hlive
  rw [hpop]
  refine ⟨by simp, fun w' hw' => h.busy w' (by rw [hlive]; exact List.mem_cons_of_mem _ hw'), ?_⟩
  cases i with
  | zero =>
    -- the requester is sending from the WQE that leaves
    right
    have hproc : w.state = .processing := by
      rcases hw with hpend | hproc
      · exact absurd hpend (hin.here w (by rw [hlive]; rfl)).1
      · exact hproc
    rw [RingBuf.rebase_zero (by omega), ← RingBuf.pop_slots q, hpop]
    refine ⟨Nat.sub_add_cancel (by simp [RingBuf.slots]; omega), fun w' hw' => ?_, fun w' hw' => ?_⟩
    · obtain ⟨j, hj⟩ := List.mem_iff_getElem?.1 hw'
      exact hin.after (j + 1) w' (Nat.succ_pos j) (by rw [hlive]; exact hj)
    · have hlast : (RingBuf.mk rest (q.free ++ [w])).get?
          ((RingBuf.mk rest (q.free ++ [w])).slots - 1) = some w := by
        unfold RingBuf.get? RingBuf.slots
        simp
      cases hlast.symm.trans hw'
      exact h.busy w (by rw [hlive]; exact List.mem_cons_self) hproc
  | succ i =>
    left
    have hle : i + 1 ≤ q.live.length := hin.le
    rw [RingBuf.rebase_succ (by omega)]
    refine ⟨?_, fun j w' hj hw' => ?_, fun w' hw' => ?_, fun j w' hj hw' => ?_⟩
    · rw [hlive] at hle
      exact Nat.le_of_succ_le_succ hle
    · exact hin.before (j + 1) w' (by omega) (by rw [hlive]; exact hw')
    · exact hin.here w' (by rw [hlive]; exact hw')
    · exact hin.after (j + 1) w' (by omega) (by rw [hlive]; exact hw')

/-- The requester sends the last packet of its WQE and moves on. -/
theorem sendLast (h : Shape q i) (hne : i ≠ q.live.length) (hw : w.state = .pending) :
    Shape (q.modify i fun _ => w) ((i + 1) % q.slots) := by
  have hslots := h.slots_pos
  refine ⟨h.modify_spare i _, fun w' hw' hproc => ?_, Or.inl ?_⟩
  · rcases RingBuf.mem_live_modify hw' with hw' | ⟨w₀, -, -, rfl⟩
    · exact h.busy w' hw' hproc
    · rw [hw] at hproc
      cases hproc
  · rcases h.place with hin | hpass
    · have hlt : i < q.live.length := Nat.lt_of_le_of_ne hin.le hne
      rw [Nat.mod_eq_of_lt (by omega)]
      refine ⟨?_, fun j w' hj hw' => ?_, fun w' hw' => ?_, fun j w' hj hw' => ?_⟩
      · rw [RingBuf.modify_live_length]
        exact hlt
      · rw [RingBuf.live_getElem?_modify] at hw'
        split at hw'
        · obtain ⟨w₀, -, rfl⟩ := Option.map_eq_some_iff.1 hw'
          exact hw
        · exact hin.before j w' (by omega) hw'
      · rw [RingBuf.live_getElem?_modify, if_neg (by omega)] at hw'
        rw [hin.after (i + 1) w' (by omega) hw']
        exact ⟨nofun, nofun⟩
      · rw [RingBuf.live_getElem?_modify, if_neg (by omega)] at hw'
        exact hin.after j w' (by omega) hw'
    · -- the index leaves the retired slot and is back at the oldest WQE
      have hlast := hpass.last
      have hlive : (q.modify i fun _ => w).live = q.live := by
        unfold RingBuf.modify
        rw [if_neg (by omega)]
      rw [hlast, Nat.mod_self]
      refine ⟨Nat.zero_le _, fun j _ hj => absurd hj (Nat.not_lt_zero j), fun w' hw' => ?_,
        fun j w' _ hw' => ?_⟩
      · rw [hlive] at hw'
        rw [hpass.posted w' (List.mem_of_getElem? hw')]
        exact ⟨nofun, nofun⟩
      · rw [hlive] at hw'
        exact hpass.posted w' (List.mem_of_getElem? hw')

/-- A work request is posted. -/
theorem push (h : Shape q i) (hfull : q.full = false)
    (hf : ∀ w, (f w).state = .posted) : Shape (q.push f) i := by
  obtain ⟨slot, cells, hfree, hcells⟩ := RingBuf.free_of_room hfull
  replace hcells := List.length_pos_iff.2 hcells
  have hposted : ∀ w ∈ q.live ++ [f slot], w ∈ q.live ∨ w.state = .posted := by
    intro w hw
    rcases List.mem_append.1 hw with hw | hw
    · exact Or.inl hw
    · rw [List.mem_singleton.1 hw]
      exact Or.inr (hf slot)
  -- a new WQE comes behind the others, posted
  have hlive : ∀ (j : ℕ) (w : SendWqe), (q.live ++ [f slot])[j]? = some w →
      q.live[j]? = some w ∨ (q.live.length ≤ j ∧ w.state = .posted) := by
    intro j w hw
    rw [List.getElem?_append] at hw
    split at hw
    · exact Or.inl hw
    · next hj =>
      refine Or.inr ⟨Nat.le_of_not_lt hj, ?_⟩
      rw [List.mem_singleton.1 (List.mem_of_getElem? hw)]
      exact hf slot
  rw [RingBuf.push_live f hfree]
  refine ⟨List.length_pos_iff.1 hcells, fun w hw hproc => ?_, ?_⟩
  · rcases hposted w hw with hw | hw
    · exact h.busy w hw hproc
    · rw [hw] at hproc
      cases hproc
  · rcases h.place with hin | hpass
    · left
      refine ⟨?_, fun j w hj hw => ?_, fun w hw => ?_, fun j w hj hw => ?_⟩
      · rw [List.length_append]
        exact Nat.le_add_right_of_le hin.le
      · rcases hlive j w hw with hw | ⟨hlen, -⟩
        · exact hin.before j w hj hw
        · exact absurd hin.le (by omega)
      · rcases hlive i w hw with hw | ⟨-, hw⟩
        · exact hin.here w hw
        · rw [hw]
          exact ⟨by decide, by decide⟩
      · rcases hlive j w hw with hw | ⟨-, hw⟩
        · exact hin.after j w hj hw
        · exact hw
    · right
      have hlast := hpass.last
      have hslots : q.slots = q.live.length + 1 + cells.length := by
        rw [RingBuf.slots, hfree, List.length_cons]
        omega
      refine ⟨?_, fun w hw => ?_, fun w hw => ?_⟩
      · rw [← RingBuf.push_live f hfree, RingBuf.push_slots]
        exact hlast
      · rcases hposted w hw with hw | hw
        · exact hpass.posted w hw
        · exact hw
      · -- the slot the requester is on is not the one that is written
        exact hpass.cheap w ((RingBuf.get?_push_of_gt hfree (by omega)).symm.trans hw)

theorem pairwise (h : Shape q i) :
    q.live.Pairwise fun w w' => w.state = .posted → w'.state = .posted := by
  rw [List.pairwise_iff_getElem]
  intro j k hj hk hjk hpost
  rcases h.place with hin | hpass
  · by_cases hji : j < i
    · have hpend := hin.before j _ hji (List.getElem?_eq_getElem hj)
      rw [hpost] at hpend
      cases hpend
    · exact hin.after k _ (by omega) (List.getElem?_eq_getElem hk)
  · exact hpass.posted _ (List.getElem_mem hk)

theorem not_done (h : Shape q i) (hw : w ∈ q.live) : w.state ≠ .done := by
  obtain ⟨j, hj⟩ := List.mem_iff_getElem?.1 hw
  rcases h.place with hin | hpass
  · rcases Nat.lt_trichotomy j i with hlt | rfl | hgt
    · rw [hin.before j w hlt hj]
      nofun
    · exact (hin.here w hj).2
    · rw [hin.after j w hgt hj]
      nofun
  · rw [hpass.posted w hw]
    nofun

theorem of_posted (hspare : q.free ≠ []) (hposted : ∀ w ∈ q.live, w.state = .posted) :
    Shape q 0 := by
  refine ⟨hspare, fun w hw hproc => ?_, Or.inl ⟨Nat.zero_le _, fun j _ hj => ?_, fun w hw => ?_,
    fun j w _ hw => ?_⟩⟩
  · rw [hposted w hw] at hproc
    cases hproc
  · exact absurd hj (Nat.not_lt_zero j)
  · rw [hposted w (List.mem_of_getElem? hw)]
    exact ⟨nofun, nofun⟩
  · exact hposted w (List.mem_of_getElem? hw)

end Shape

/-! ### A retry -/

theorem retryLoop_posted (type : QpType) (mtu npsn : ℕ) (ws : List SendWqe)
    (hdone : ∀ w ∈ ws, w.state ≠ .done)
    (hws : ws.Pairwise fun w w' => w.state = .posted → w'.state = .posted) :
    ∀ first op, ∀ w ∈ (retryLoop type mtu npsn first op ws).2, w.state = .posted := by
  induction ws with
  | nil => exact fun _ _ w hw => absurd hw List.not_mem_nil
  | cons v vs ih =>
    intro first op w hw
    obtain ⟨hv, hvs⟩ := List.pairwise_cons.1 hws
    have hrest := ih (fun w hw => hdone w (List.mem_cons_of_mem _ hw)) hvs
    unfold retryLoop at hw
    split at hw
    · next hposted =>
      rcases List.mem_cons.1 hw with rfl | hw
      · exact hposted
      · exact hv w hw hposted
    · next hd => exact absurd hd (hdone v List.mem_cons_self)
    · rcases List.mem_cons.1 hw with rfl | hw
      · rfl
      · exact hrest _ _ w hw

/-- `req_retry` starts over with the oldest WQE. -/
theorem Shape.reqRetry (h : Shape c.qp.sq c.qp.req.wqeIndex) :
    Shape (reqRetry c).qp.sq (reqRetry c).qp.req.wqeIndex := by
  unfold Rxe.reqRetry
  split
  · exact h
  · exact Shape.of_posted h.spare
      (retryLoop_posted _ _ _ _ (fun w hw => h.not_done hw) h.pairwise _ _)

/-! ### The oldest WQE -/

/-- The oldest WQE has been sent from. -/
def Ctx.busy (c : Ctx) : Prop := ∀ w, c.sqHead = some w → w.state = .pending ∨ w.state = .processing

theorem Ctx.sqHead_setWqe (c : Ctx) (f : SendWqe → SendWqe) :
    (c.setWqe 0 f).sqHead = c.sqHead.map f := by
  unfold Ctx.sqHead Ctx.setWqe
  rw [List.head?_eq_getElem?, List.head?_eq_getElem?, RingBuf.live_getElem?_modify, if_pos rfl]

theorem Ctx.busy_setWqe (h : c.busy)
    (hf : ∀ w, (f w).state = w.state) : (c.setWqe 0 f).busy := by
  intro w hw
  rw [Ctx.sqHead_setWqe] at hw
  obtain ⟨w', hw', rfl⟩ := Option.map_eq_some_iff.1 hw
  rw [hf]
  exact h w' hw'

theorem doComplete_reqState (c : Ctx) : (doComplete c).qp.req.state = c.qp.req.state :=
  congrArg (·.2.1) (doComplete_rel statesRel c)

theorem compFlush_reqState (c : Ctx) : (compFlush c).qp.req.state = c.qp.req.state :=
  congrArg (·.2.1) (compFlush_rel statesRel c)

theorem rxeQpError_reqState (c : Ctx) : (rxeQpError c).qp.req.state = .error := by
  unfold rxeQpError
  dsimp only
  split
  · rfl
  · exact compFlush_reqState _

/-! ### A packet under construction -/

section Building

variable {c c₁ : Ctx} {w : SendWqe} {opcode : Opcode}

theorem Ctx.next_setWqe (c : Ctx) (f : SendWqe → SendWqe) :
    (c.setWqe c.qp.req.wqeIndex f).next = c.next.map f := by
  unfold Ctx.next Ctx.setWqe
  rw [RingBuf.get?_modify, if_pos rfl]

/-- The WQE of a packet under construction: its request and its state are as before, and for
a read or an atomic it holds a credit. -/
structure Carried (c : Ctx) (w : SendWqe) (opcode : Opcode) (c₁ : Ctx) (w₁ : SendWqe) : Prop where
  next : c₁.next = some w₁
  ident : w₁.ident = w.ident
  state : w₁.state = w.state
  reqState : c₁.qp.req.state = c.qp.req.state
  index : c₁.qp.req.wqeIndex = c.qp.req.wqeIndex
  length : c₁.qp.sq.live.length = c.qp.sq.live.length
  credit : (rxeOpcodeMask opcode).readOrAtomic → w₁.hasRdAtomic
  out : c₁.out = c.out

theorem Building.carried (h : Building c w opcode c₁) : ∃ w₁, Carried c w opcode c₁ w₁ := by
  obtain ⟨c₂, skb, noack, out, hcredit, hload⟩ := h.steps
  have hmasked : (c.masked w).next =
      some { w with mask := wrOpcodeMask w.ibwr.opcode c.qp.type } := by
    rw [Ctx.masked, Ctx.next_setWqe, h.chosen.next]
    rfl
  have hlen : ∀ (c : Ctx) i f, (c.setWqe i f).qp.sq.live.length = c.qp.sq.live.length :=
    fun c i f => RingBuf.modify_live_length c.qp.sq i f
  -- each write to the slot is to the WQE that was chosen
  have hcredited : ∃ w₂, Carried c w opcode c₂ w₂ := by
    cases hcredit with
    | free hno =>
      refine ⟨_, hmasked, rfl, rfl, rfl, rfl, hlen _ _ _, fun hread => ?_, rfl⟩
      rw [hno] at hread
      cases hread
    | held _ hheld => exact ⟨_, hmasked, rfl, rfl, rfl, rfl, hlen _ _ _, fun _ => hheld, rfl⟩
    | taken =>
      have htaken := Ctx.next_setWqe (c.masked w) fun w => { w with hasRdAtomic := true }
      rw [hmasked] at htaken
      exact ⟨_, htaken, rfl, rfl, rfl, rfl, (hlen _ _ _).trans (hlen _ _ _), fun _ => rfl, rfl⟩
  obtain ⟨w₂, hw₂⟩ := hcredited
  cases hload with
  | none =>
    exact ⟨w₂, hw₂.next, hw₂.ident, hw₂.state, hw₂.reqState, hw₂.index, hw₂.length, hw₂.credit,
      hw₂.out⟩
  | data _ dma =>
    refine ⟨{ w₂ with dma }, ?_, hw₂.ident, hw₂.state, hw₂.reqState, hw₂.index,
      (hlen _ _ _).trans hw₂.length, hw₂.credit, hw₂.out⟩
    refine (Ctx.next_setWqe
      { c₂ with skb, qp.req.noackPkts := noack, qp.reqSkbOut := out } _).trans ?_
    rw [show ({ c₂ with skb, qp.req.noackPkts := noack, qp.reqSkbOut := out } : Ctx).next = some w₂
      from hw₂.next]
    rfl

theorem Building.shape (h : Building c w opcode c₁) (hshape : Shape c.qp.sq c.qp.req.wqeIndex) :
    Shape c₁.qp.sq c₁.qp.req.wqeIndex := by
  obtain ⟨c₂, skb, noack, out, hcredit, hload⟩ := h.steps
  have hcredited : Shape c₂.qp.sq c₂.qp.req.wqeIndex := by
    have hmasked : Shape (c.masked w).qp.sq c.qp.req.wqeIndex := hshape.modify _ fun _ => ⟨rfl, rfl⟩
    cases hcredit with
    | free => exact hmasked
    | held => exact hmasked
    | taken => exact hmasked.modify _ fun _ => ⟨rfl, rfl⟩
  cases hload with
  | none => exact hcredited
  | data _ dma => exact hcredited.modify _ fun _ => ⟨rfl, rfl⟩

theorem Chosen.inside (h : Chosen c w) (hshape : Shape c.qp.sq c.qp.req.wqeIndex)
    (hcostly : w.costly) : c.qp.req.wqeIndex < c.qp.sq.live.length := by
  rcases hshape.place with hin | hpass
  · exact Nat.lt_of_le_of_ne hin.le h.queued
  · rw [hpass.cheap w h.next] at hcostly
    cases hcostly

theorem armRetransTimer_qp (c : Ctx) : (armRetransTimer c).qp = c.qp := by
  unfold armRetransTimer
  split <;> rfl

theorem updateState_eq (pkt : Pkt) (payload : ℕ) (hw : c.next = some w) :
    ∃ numPkt w' psn, w' = updateWqe c.qp.type c.qp.req.psn numPkt (rxeOpcodeMask pkt.opcode) w ∧
      updateState c pkt payload =
        armRetransTimer (moveOn c c.qp.req.wqeIndex w' psn pkt.opcode
          (if (rxeOpcodeMask pkt.opcode).end_ then (c.qp.req.wqeIndex + 1) % c.qp.sq.slots
            else c.qp.req.wqeIndex)) := by
  unfold updateState
  dsimp only
  rw [show c.qp.sq.get? c.qp.req.wqeIndex = some w from hw]
  exact ⟨_, _, _, rfl, rfl⟩

theorem updateState_shape (pkt : Pkt) (payload : ℕ) (hshape : Shape c.qp.sq c.qp.req.wqeIndex)
    (hrc : c.qp.type = .rc) (hw : c.next = some w) (hne : c.qp.req.wqeIndex ≠ c.qp.sq.live.length)
    (hcheap : (rxeOpcodeMask pkt.opcode).end_ = false → w.costly = false) :
    Shape (updateState c pkt payload).qp.sq (updateState c pkt payload).qp.req.wqeIndex := by
  obtain ⟨numPkt, w', psn, hw', heq⟩ := updateState_eq pkt payload hw
  rw [heq, armRetransTimer_qp]
  have hibwr : w'.ibwr = w.ibwr := by
    rw [hw', updateWqe]
    split <;> rfl
  have hstate : w'.state = if (rxeOpcodeMask pkt.opcode).end_ then .pending else .processing := by
    rw [hw', updateWqe, hrc]
    rfl
  cases hend : (rxeOpcodeMask pkt.opcode).end_ with
  | true =>
    rw [hend] at hstate
    exact hshape.sendLast hne hstate
  | false =>
    rw [hend] at hstate
    have hproc : w'.state = .processing := hstate
    refine hshape.set hw hibwr ?_ fun _ => hcheap hend
    rw [hproc]
    exact ⟨by decide, by decide⟩

theorem Building.sent_sends (hbuild : Building c w opcode c₁) (pkt : Pkt) (payload : ℕ) :
    sends ((updateState c₁ pkt payload).emit (.sendReq pkt w.ssn)).out =
      sends c.out ++ [(pkt, w.ssn)] := by
  obtain ⟨w₁, hcarried⟩ := hbuild.carried
  obtain ⟨numPkt, w', psn, -, heq⟩ := updateState_eq pkt payload hcarried.next
  have harm : ∀ c, sends (armRetransTimer c).out = sends c.out := by
    intro c
    unfold armRetransTimer
    split
    · exact sends_emit _ rfl
    · rfl
  rw [Ctx.emit, sends_append, heq, harm]
  exact congrArg (sends · ++ _) hcarried.out

theorem ReqOutcome.sends_cases (hout : ReqOutcome c c') :
    sends c'.out = sends c.out ∨
      ∃ w opcode c₁ pkt, Building c w opcode c₁ ∧ pkt.opcode = opcode ∧
        c' = (updateState c₁ pkt (reqPayload c w opcode).toNat).emit (.sendReq pkt w.ssn) ∧
        sends c'.out = sends c.out ++ [(pkt, w.ssn)] := by
  cases hout with
  | idle | fence | window | full | invalid | depth => exact Or.inl rfl
  | noSkb c₁ skb _ _ hcredit =>
    left
    cases hcredit <;> rfl
  | failed hbuild hcall =>
    obtain ⟨w₁, hcarried⟩ := hbuild.carried
    left
    rw [rxeCompleter_sends hcall]
    exact congrArg sends hcarried.out
  | @sent w opcode c₁ pkt hbuild hpkt =>
    exact Or.inr ⟨w, opcode, c₁, pkt, hbuild, hpkt.1, rfl, hbuild.sent_sends pkt _⟩

end Building

/-! ### Requests -/

theorem reqStart_sends (c : Ctx) : sends (reqDrain (reqStart c)).out = sends c.out := by
  have hdrain : ∀ c, sends (reqDrain c).out = sends c.out := by
    intro c
    unfold reqDrain
    split
    · exact sends_emit _ rfl
    · rfl
  rw [hdrain]
  unfold reqStart reqRetry
  split
  · split <;> rfl
  · rfl

theorem dropSq_reqState (n : ℕ) (c : Ctx) : (dropSq n c).qp.req.state = c.qp.req.state := by
  obtain ⟨req, sq, h, hstate⟩ := dropSq_qp n c
  rw [h]
  exact hstate

theorem setQpState_sends {state : Option IbQpState} (hrc : c.qp.type = .rc)
    (h : setQpState c state = some c') : c'.qp.type = .rc ∧ sends c'.out = sends c.out := by
  rcases setQpState_cases h with ⟨-, hreset⟩ | ⟨-, rfl⟩ | ⟨-, -, ⟨-, rfl⟩ | ⟨hno, -⟩⟩ |
    ⟨req, resp, rfl, -⟩
  · obtain ⟨req, resp, sq, rq, pkts, rfl, -⟩ := rxeQpReset_frame hreset
    exact ⟨hrc, rfl⟩
  · exact ⟨(congrArg Prod.fst (rxeQpError_rel fixedRel.coarse c)).trans hrc,
      rxeQpError_rel (seenRel request_deaf.toCoarse) c⟩
  · exact ⟨hrc, (sends_emit _ rfl).trans (sends_emit _ rfl)⟩
  · exact absurd hrc hno
  · exact ⟨hrc, rfl⟩

theorem rxeQpFromAttr_sends {a : ModifyAttr} (hrc : c.qp.type = .rc)
    (h : rxeQpFromAttr c a = some r) : r.2.qp.type = .rc ∧ sends r.2.out = sends c.out := by
  obtain ⟨skb, n, rd, res, head, rfl | ⟨-, hset⟩⟩ := rxeQpFromAttr_cases h
  · exact ⟨hrc, rfl⟩
  · exact setQpState_sends (c := ringAttrs c skb n rd res head a) hrc hset

theorem sendAct_rc (hrc : c.qp.type = .rc)
    (h : sendAct c a = some c') : c'.qp.type = .rc := by
  by_cases hmodify : ∃ attr, a = .modify attr
  · obtain ⟨attr, rfl⟩ := hmodify
    obtain ⟨r, hcall, rfl⟩ := Option.map_eq_some_iff.1 h
    exact (rxeQpFromAttr_sends hrc hcall).1
  · exact (congrArg Prod.fst (sendAct_fixed (fun attr ha => hmodify ⟨attr, ha⟩) h)).trans hrc

/-- Only the requester sends requests. -/
theorem sendAct_sends (hrc : c.qp.type = .rc) (hreq : a ≠ .requester)
    (h : sendAct c a = some c') : sends c'.out = sends c.out := by
  cases a with
  -- only the requester's packets count: a post may emit a wakeup, not a packet
  | post wrs =>
    cases h
    exact rxePostSend_inv (P := fun c₁ => sends c₁.out = sends c.out) (fun _ _ _ h => h)
      (fun _ h => (sends_emit _ rfl).trans h) rfl wrs
  | requester => exact absurd rfl hreq
  | completer =>
    obtain ⟨r, hcall, rfl⟩ := Option.map_eq_some_iff.1 h
    exact rxeCompleter_sends hcall
  | recv pkt =>
    cases h
    exact sends_emit _ rfl
  | timer =>
    cases h
    unfold retransmitTimer
    split
    · exact sends_emit _ rfl
    · rfl
  | error =>
    cases h
    exact rxeQpError_rel (seenRel request_deaf.toCoarse) c
  | modify attr =>
    obtain ⟨r, hcall, rfl⟩ := Option.map_eq_some_iff.1 h
    exact (rxeQpFromAttr_sends hrc hcall).2
  | env dev skb cq =>
    cases h
    rfl

/-! ### The tasks keep the shape -/

/-- An RC QP whose send queue has its shape. -/
structure Shaped (c : Ctx) : Prop where
  rc : c.qp.type = .rc
  shape : Shape c.qp.sq c.qp.req.wqeIndex

namespace Shaped

variable {c : Ctx} {w : SendWqe} {pkt : Pkt}

theorem setWqe (h : Shaped c) (i : ℕ)
    (hf : ∀ w, (f w).state = w.state ∧ (f w).ibwr = w.ibwr) : Shaped (c.setWqe i f) :=
  ⟨h.rc, h.shape.modify i hf⟩

theorem retire (h : Shaped c) (hbusy : c.busy) : Shaped (doComplete c) := by
  unfold doComplete
  split
  · exact h
  · next w hw =>
    obtain ⟨rest, hlive⟩ := Ctx.live_of_head hw
    have hpop : Shaped (advanceSq (postSendCqe c w)) := by
      unfold advanceSq
      rw [postSendCqe_qp]
      exact ⟨h.rc, h.shape.pop hlive (hbusy w hw)⟩
    unfold wakeWaitFence
    split
    · exact ⟨hpop.rc, hpop.shape⟩
    · exact hpop

theorem wakeWaitPsn (h : Shaped c) : Shaped (wakeWaitPsn c) := by
  unfold Rxe.wakeWaitPsn
  split
  · exact ⟨h.rc, h.shape⟩
  · exact h

theorem advanceCompPsn (h : Shaped c) (pkt : Pkt) : Shaped (advanceCompPsn c pkt) := by
  unfold Rxe.advanceCompPsn
  split
  · exact ⟨h.rc, h.shape⟩
  · exact h

end Shaped

theorem releaseRdAtomic_busy (h : c.busy) (w : SendWqe) : (releaseRdAtomic c w).busy := by
  unfold releaseRdAtomic
  split
  · have hbusy := Ctx.busy_setWqe h (f := fun w => { w with hasRdAtomic := false }) fun _ => rfl
    dsimp only
    split <;> exact hbusy
  · exact h

theorem releaseRdAtomic_shaped (h : Shaped c) (w : SendWqe) :
    Shaped (releaseRdAtomic c w) := by
  unfold releaseRdAtomic
  split
  · have hshape := h.setWqe 0 (f := fun w => { w with hasRdAtomic := false }) fun _ => ⟨rfl, rfl⟩
    dsimp only
    split <;> exact ⟨hshape.rc, hshape.shape⟩
  · exact h

/-- What holds in a state of the completer: after `get_wqe` has found a WQE that has been sent
from, it is at the head of the queue until it is retired. -/
def shapeState : CompState → Ctx → Prop
  | .error, _ => True
  | .checkPsn, c | .checkAck, c | .read, c | .atomic, c | .writeSend, c | .compAck, c
  | .compWqe, c => Shaped c ∧ c.busy
  | _, c => Shaped c

theorem copyResponse_shape (h : Shaped c) (hbusy : c.busy) (pkt : Pkt) (w : SendWqe)
    (data : List UInt8) {next : DmaInfo → CompState}
    (hnext : ∀ dma, next dma = .compAck ∨ next dma = .updateComp) :
    shapeState (copyResponse c pkt w data next).1 (copyResponse c pkt w data next).2 := by
  obtain ⟨dma, dev, heq | heq⟩ := copyResponse_outcome c pkt w data next
  · rw [heq]
    trivial
  · rw [heq]
    have hdev : Shaped { c with dev } := ⟨h.rc, h.shape⟩
    have hdma := hdev.setWqe 0 (f := fun w => { w with dma }) fun _ => ⟨rfl, rfl⟩
    rcases hnext dma with hstate | hstate
    · rw [hstate]
      exact ⟨⟨hdma.rc, hdma.shape⟩, Ctx.busy_setWqe (c := { c with dev }) hbusy fun _ => rfl⟩
    · rw [hstate]
      exact ⟨hdma.rc, hdma.shape⟩

theorem shapeRule : CompRule (fun state _ c => shapeState state c)
    (fun c => c.qp.req.state ≠ .error → Shaped c) where
  noAck _ _ h _ := h
  takeAck _ _ _ _ h _ := ⟨h.rc, h.shape⟩
  getWqe pkt c h := by
    have hout := getWqe_outcome c pkt
    generalize getWqe c pkt = state at hout
    cases hout with
    | idle | unasked => exact h
    | failed => trivial
    -- a WQE in the queue is not done: it is retired as soon as it is
    | done hw hstate => exact absurd hstate (h.shape.not_done (List.mem_of_head? hw))
    | busy hw hstate =>
      refine ⟨h, fun w' hw' => ?_⟩
      cases hw.symm.trans hw'
      exact hstate
  checkPsn p w c _ h := by
    have hout := compCheckPsn_outcome c p w
    generalize compCheckPsn c p w = r at hout
    cases hout with
    | lost | early | old | skipped => exact h.1
    | implied => exact ⟨⟨h.1.rc, h.1.shape⟩, h.2⟩
    | again | current => exact h
  checkAck p w c _ h := by
    have hout := checkAck_outcome c p w
    generalize checkAck c p w = r at hout
    cases hout with
    | unfit | nak => trivial
    | read | atomic | ack => exact ⟨⟨h.1.rc, h.1.shape⟩, h.2⟩
    | rnr | seq => exact h.1
    | seqPast => exact Shaped.wakeWaitPsn ⟨h.1.rc, h.1.shape⟩
  read p w c _ h := by
    refine copyResponse_shape h.1 h.2 p w _ fun dma => ?_
    split
    · exact Or.inl rfl
    · exact Or.inr rfl
  atomic p w c _ h := by
    unfold doAtomic
    generalize u64Bytes p.atmack = data
    exact copyResponse_shape h.1 h.2 p w data fun _ => Or.inl rfl
  writeSend p w c _ h := by
    split
    · exact h
    · exact h.1
  compAck p w c _ h := by
    have hack : Shaped (completeAck c p w).2 := by
      have hrelease := releaseRdAtomic_shaped h.1 w
      have hbusy := releaseRdAtomic_busy h.2 w
      unfold completeAck
      unfold completeDrain
      split
      · exact Shaped.retire ⟨hrelease.rc, hrelease.shape⟩ hbusy
      · exact hrelease.retire hbusy
    rcases completeAck_state c p w with hstate | hstate
    · rw [hstate]
      exact hack
    · rw [hstate]
      exact hack
  compWqe pkt c h := by
    have hopcode : Shaped { c with qp.comp.opcode := none } := ⟨h.1.rc, h.1.shape⟩
    unfold completeWqe
    split
    · exact hopcode.retire h.2
    · next p =>
      refine (hopcode.advanceCompPsn p).wakeWaitPsn.retire ?_
      unfold Ctx.busy Ctx.sqHead
      rw [wakeWaitPsn_advance_sq]
      exact h.2
  updateComp p c h := by
    have hopcode : Shaped
        { c with qp.comp.opcode := if p.mask.end_ then none else some p.opcode } :=
      ⟨h.rc, h.shape⟩
    exact (hopcode.advanceCompPsn p).wakeWaitPsn
  done _ _ h _ := h
  timedOut _ _ _ _ _ h := h
  exit _ c h _ := by
    unfold compExit
    split
    · exact ⟨h.rc, h.shape⟩
    · exact h
  retry _ c _ _ _ _ h _ := by
    unfold compErrorRetry
    dsimp only
    split
    · exact ⟨h.rc, h.shape⟩
    · exact ⟨h.rc, h.shape⟩
  retryExc _ _ _ _ _ _ _ := trivial
  rnrRetry _ _ _ _ _ h _ := ⟨h.rc, h.shape⟩
  rnrExc _ _ _ _ _ _ := trivial
  -- the QP is in the error state from here on
  error _ _ _ hstate := absurd (rxeQpError_reqState _) hstate
  leave state _ c hne h _ := by
    cases state with
    | error => exact absurd rfl hne
    | checkPsn | checkAck | read | atomic | writeSend | compAck | compWqe => exact h.1
    | getAck | getWqe | updateComp | errorRetry | rnrRetry | exit | done => exact h

/-- A call of the completer that leaves the QP in use, and out of the error state, runs the
loop or returns at once. -/
theorem rxeCompleter_live (hvalid : c.qp.valid)
    (hlive : c.qp.req.state ≠ .reset) (hcall : rxeCompleter c = some r)
    (hr : r.2.qp.req.state ≠ .error) :
    r.2 = compEnter c ∨
      Loop.run compStep (compFuel (compEnter c)) ⟨.getAck, none, compEnter c⟩ = some r := by
  rcases rxeCompleter_cases hcall with ⟨hdrop, -⟩ | ⟨herr, rfl⟩ | ⟨-, -, rfl⟩ | ⟨-, -, -, -, hrun⟩
  · rcases hdrop with hno | hreset
    · rw [hvalid] at hno
      cases hno
    · exact absurd hreset hlive
  · exact absurd ((compFlush_reqState c).trans herr) hr
  · exact Or.inl rfl
  · exact Or.inr hrun

theorem rxeCompleter_shaped (h : Shaped c) (hvalid : c.qp.valid)
    (hlive : c.qp.req.state ≠ .reset) (hcall : rxeCompleter c = some r)
    (hr : r.2.qp.req.state ≠ .error) : Shaped r.2 := by
  rcases rxeCompleter_live hvalid hlive hcall hr with heq | hrun
  · rw [heq]
    exact ⟨h.rc, h.shape⟩
  · exact shapeRule.run (s := ⟨.getAck, none, compEnter c⟩) ⟨h.rc, h.shape⟩ hrun hr

section Requester

variable {c c₁ c' : Ctx} {w : SendWqe} {opcode : Opcode}

theorem reqStart_shaped (h : Shaped c) : Shaped (reqDrain (reqStart c)) := by
  have hstart : Shaped (reqStart c) := by
    unfold reqStart
    split
    · refine ⟨?_, h.shape.reqRetry⟩
      unfold reqRetry
      split <;> exact h.rc
    · exact h
  unfold reqDrain
  split
  · exact ⟨hstart.rc, hstart.shape⟩
  · exact hstart

theorem Building.shaped (hbuild : Building c w opcode c₁) (h : Shaped c) : Shaped c₁ :=
  ⟨(congrArg Prod.fst hbuild.fixed).trans h.rc, hbuild.shape h.shape⟩

theorem Building.sent_shaped {pkt : Pkt} (hbuild : Building c w opcode c₁) (h : Shaped c)
    (hpkt : pkt.opcode = opcode) (payload : ℕ) : Shaped (updateState c₁ pkt payload) := by
  obtain ⟨w₁, hcarried⟩ := hbuild.carried
  have h₁ := hbuild.shaped h
  have hop := hbuild.op
  rw [h.rc] at hop
  have hcostly : w₁.costly = w.costly := congrArg (fun id : ℕ × SendWr =>
    (wrOpcodeMask id.2.opcode .rc).atomicOrRead) hcarried.ident
  refine ⟨(updateState_type _ _ _).trans h₁.rc, ?_⟩
  refine updateState_shape pkt payload h₁.shape h₁.rc hcarried.next ?_ fun hend => ?_
  · rw [hcarried.index, hcarried.length]
    exact hbuild.chosen.queued
  · rw [hcostly, ← nextOpcode_costly hop]
    by_contra hread
    rw [hpkt, end_of_readOrAtomic (by simpa using hread)] at hend
    cases hend

theorem Building.failed_shaped (hbuild : Building c w opcode c₁) (h : Shaped c) :
    Shaped (c₁.setWqe c₁.qp.req.wqeIndex fun w =>
      { w with status := .locProtErr, state := .error }) := by
  obtain ⟨w₁, hcarried⟩ := hbuild.carried
  have h₁ := hbuild.shaped h
  exact ⟨h₁.rc, h₁.shape.set hcarried.next rfl ⟨nofun, nofun⟩ nofun⟩

theorem Credited.shaped (hcredit : Credited (c.masked w) w opcode c₁) (h : Shaped c) :
    Shaped c₁ := by
  have hmasked : Shaped (c.masked w) := h.setWqe _ fun _ => ⟨rfl, rfl⟩
  cases hcredit with
  | free => exact hmasked
  | held => exact hmasked
  | taken =>
    have htaken := hmasked.setWqe c.qp.req.wqeIndex (f := fun w => { w with hasRdAtomic := true })
      fun _ => ⟨rfl, rfl⟩
    exact ⟨htaken.rc, htaken.shape⟩

theorem ReqOutcome.shaped (hout : ReqOutcome c c') (h : Shaped c) (hvalid : c.qp.valid)
    (hlive : c.qp.req.state ≠ .reset) (hr : c'.qp.req.state ≠ .error) : Shaped c' := by
  have hmasked : ∀ w, Shaped (c.masked w) := fun w => h.setWqe _ fun _ => ⟨rfl, rfl⟩
  cases hout with
  | idle => exact h
  | fence => exact ⟨h.rc, h.shape⟩
  | @window w => exact ⟨h.rc, (hmasked w).shape⟩
  | @full w => exact ⟨h.rc, (hmasked w).shape⟩
  | @invalid w => exact (hmasked w).setWqe _ fun _ => ⟨rfl, rfl⟩
  | @depth w => exact ⟨h.rc, (hmasked w).shape⟩
  | noSkb c₁ skb _ _ hcredit =>
    have hcredited := hcredit.shaped h
    exact ⟨hcredited.rc, hcredited.shape⟩
  | @failed w opcode c₁ _ b hbuild hcall =>
    obtain ⟨w₁, hcarried⟩ := hbuild.carried
    refine rxeCompleter_shaped (hbuild.failed_shaped h) ?_ ?_ hcall hr
    · exact (congrArg (fun f => f.2.1) hbuild.fixed).trans hvalid
    · exact fun hreset => hlive (hcarried.reqState.symm.trans hreset)
  | @sent w opcode c₁ pkt hbuild hpkt =>
    have hsent := hbuild.sent_shaped h hpkt.1 (reqPayload c w opcode).toNat
    exact ⟨hsent.rc, hsent.shape⟩

end Requester

theorem sendAct_live (hvalid : c.qp.valid) (hlive : c.qp.req.state ≠ .reset)
    (hreset : ∀ attr, a = .modify attr → attr.qpState ≠ some .reset)
    (hact : sendAct c a = some c') :
    c'.qp.valid ∧ c'.qp.req.state ≠ .reset := by
  have huse : c.inUse := ⟨hvalid, fun hno => absurd hno hlive⟩
  have hside : SendSide c c' → c'.qp.valid ∧ c'.qp.req.state ≠ .reset :=
    fun h => ⟨h.valid.trans hvalid, fun hno => hlive (h.reqReset hno)⟩
  cases a with
  | post wrs =>
    cases hact
    obtain ⟨n, -, sq, es, -, hc, -, -⟩ := rxePostSend_frame c wrs
    rw [hc]
    exact ⟨hvalid, hlive⟩
  | requester => exact hside (sendAct_side (a := .requester) huse trivial nofun nofun hact)
  | completer => exact hside (sendAct_side (a := .completer) huse trivial nofun nofun hact)
  | recv pkt => exact hside (sendAct_side (a := .recv pkt) huse trivial nofun nofun hact)
  | timer => exact hside (sendAct_side (a := .timer) huse trivial nofun nofun hact)
  | error => exact hside (sendAct_side (a := .error) huse trivial nofun nofun hact)
  | modify attr =>
    exact hside (sendAct_side (a := .modify attr) huse (hreset attr rfl) nofun nofun hact)
  | env dev skb cq =>
    cases hact
    exact ⟨hvalid, hlive⟩

theorem setQpState_sq {state : Option IbQpState} (hrc : c.qp.type = .rc)
    (hreset : state ≠ some .reset) (hset : setQpState c state = some c')
    (hr : c'.qp.req.state ≠ .error) :
    c'.qp.sq = c.qp.sq ∧ c'.qp.req.wqeIndex = c.qp.req.wqeIndex ∧
      c'.qp.req.rdAtomic = c.qp.req.rdAtomic ∧ c'.qp.ssn = c.qp.ssn := by
  rcases setQpState_cases hset with ⟨h, -⟩ | ⟨-, rfl⟩ | ⟨-, -, ⟨-, rfl⟩ | ⟨hno, -⟩⟩ |
    ⟨req, resp, rfl, -⟩
  · exact absurd h hreset
  · exact absurd (rxeQpError_reqState c) hr
  · exact ⟨rfl, rfl, rfl, rfl⟩
  · exact absurd hrc hno
  · exact ⟨rfl, rfl, rfl, rfl⟩

end Rxe
