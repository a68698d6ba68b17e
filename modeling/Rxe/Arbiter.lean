/-
The send arbiter (`rxe_arbiter.c`).

Packets of a QP wait in its queue `send_pkts`; QPs with packets to send wait in the list
`arbiter.qp_list`.  A call of `arbiter_skb_queue` appends to the first and then adds the QP
to the second, in two steps; any number of calls may be between the two.  `rxe_arbiter` is
run by one task: it takes a QP off the list, takes a packet off its queue, hands it to the
interface, and puts the QP back.  A step is a section under a lock, or the call of the
interface, which may take the packet, fail, or answer that its queue is stopped.

The rate control of `xmit_one_packet` only delays it and is left out; the loopback and the
send function of the interface answer alike.

* `InOrder.step` — the packets of a QP are consumed in the order in which they were queued,
  each once; a stopped packet goes back to its place;
* `Listed.step` — where the exits on an error leave the QP listed, so does every other step;
* `arbiter_listed` — both, over whole runs;
* `arbiter_strands` — after a stopped packet the QP is off the list.
-/
import Mathlib.Logic.Function.Basic
import Rxe.Trace
import Rxe.Verbs

namespace Rxe

/-- A packet for the arbiter, and whether it is a request. -/
structure Skb where
  id : ℕ
  isRequest : Bool
  deriving DecidableEq, Repr

/-- What the interface answers: 0, `RXE_QUEUE_STOPPED`, or another error. -/
inductive XmitResult
  | ok | stopped | error
  deriving DecidableEq, Repr

/-- What became of a packet that was taken off its queue. -/
inductive Fate
  | sent | failed | dropped
  deriving DecidableEq, Repr

/-- The part of a QP the arbiter uses.  `queued` and `fates` record what was queued and what
was consumed, in order. -/
structure ArbQp where
  valid : Bool := true
  reqState : QpState := .ready
  respState : QpState := .ready
  needReqSkb : Bool := false
  reqSkbOut : ℤ := 0
  respSkbOut : ℤ := 0
  -- times the requester task was scheduled
  reqRuns : ℕ := 0
  sendPkts : List Skb := []
  queued : List Skb := []
  fates : List (Skb × Fate) := []
  deriving DecidableEq, Repr

/-- Where the call of `rxe_arbiter` stands, with its QP and packet. -/
inductive ArbPc (ι : Type)
  | idle
  /-- the QP is off the list -/
  | picked (qp : ι)
  /-- the packet is off its queue -/
  | sending (qp : ι) (skb : Skb)
  /-- the interface was stopped -/
  | stopped (qp : ι) (skb : Skb)
  /-- before the section that puts the QP back -/
  | finish (qp : ι)

/-- The device: the list, the QPs, the call of `rxe_arbiter`, and the calls of
`arbiter_skb_queue` that have appended their packet and not yet looked at the list. -/
structure ArbSys (ι : Type) where
  qpList : List ι := []
  qps : ι → ArbQp := fun _ => {}
  pc : ArbPc ι := .idle
  adding : List ι := []
  xmitErrors : ℕ := 0
  maxSkbPerQp : ℤ := 800

/-- Steps of the arbiter, of its users, and of the verbs that change the state of a QP. -/
inductive ArbAct (ι : Type)
  | queueTail (qp : ι) (skb : Skb)
  | addToList (qp : ι)
  | pick
  | dequeue
  | xmit (result : XmitResult)
  | requeue
  | finish
  | modify (qp : ι) (valid : Bool) (reqState respState : QpState)

section Step

variable {ι : Type} [DecidableEq ι]

def ArbSys.setQp (s : ArbSys ι) (q : ι) (f : ArbQp → ArbQp) : ArbSys ι :=
  { s with qps := Function.update s.qps q (f (s.qps q)) }

/-- `list_add_tail`, if the QP is not on the list. -/
def ArbSys.listAdd (s : ArbSys ι) (q : ι) : ArbSys ι :=
  if q ∈ s.qpList then s else { s with qpList := s.qpList ++ [q] }

/-- `account_skb`, with the record of what became of the packet. -/
def accountSkb (maxSkbPerQp : ℤ) (skb : Skb) (fate : Fate) (qp : ArbQp) : ArbQp :=
  let qp := { qp with fates := qp.fates ++ [(skb, fate)] }
  if skb.isRequest then
    let out := qp.reqSkbOut - 1
    { qp with
      reqSkbOut := out
      reqRuns := if qp.needReqSkb ∧ out < maxSkbPerQp then qp.reqRuns + 1 else qp.reqRuns }
  else { qp with respSkbOut := qp.respSkbOut - 1 }

/-- `skb_queue_tail` -/
def ArbQp.queueTail (skb : Skb) (qp : ArbQp) : ArbQp :=
  { qp with sendPkts := qp.sendPkts ++ [skb], queued := qp.queued ++ [skb] }

/-- `skb_queue_head` -/
def ArbQp.queueHead (skb : Skb) (qp : ArbQp) : ArbQp := { qp with sendPkts := skb :: qp.sendPkts }

/-- `skb_dequeue` -/
def ArbQp.dequeue (qp : ArbQp) : ArbQp := { qp with sendPkts := qp.sendPkts.tail }

/-- The QP is in a state to send the packet. -/
def ArbQp.canSend (qp : ArbQp) (skb : Skb) : Bool :=
  qp.valid && (if skb.isRequest then qp.reqState = .ready else qp.respState = .ready)

/-- `xmit_one_packet`, and the branch of `rxe_arbiter` on its result. -/
def xmitOnePacket (s : ArbSys ι) (q : ι) (skb : Skb) (result : XmitResult) : ArbSys ι :=
  if (s.qps q).canSend skb = false then
    { s.setQp q (accountSkb s.maxSkbPerQp skb .dropped) with pc := .finish q }
  else
    match result with
    | .ok => { s.setQp q (accountSkb s.maxSkbPerQp skb .sent) with pc := .finish q }
    | .stopped => { s with pc := .stopped q skb }
    -- the packet is consumed, and rxe_arbiter returns
    | .error =>
      { s.setQp q (accountSkb s.maxSkbPerQp skb .failed) with
        pc := .idle, xmitErrors := s.xmitErrors + 1 }

/-- One step. -/
def arbStep (s : ArbSys ι) (a : ArbAct ι) : Option (ArbSys ι) :=
  match a, s.pc with
  | .queueTail q skb, _ =>
    some { s.setQp q (ArbQp.queueTail skb) with adding := q :: s.adding }
  | .addToList q, _ =>
    if q ∈ s.adding then some { s.listAdd q with adding := s.adding.erase q } else none
  | .pick, .idle =>
    match s.qpList with
    | [] => some s
    | q :: rest => some { s with qpList := rest, pc := .picked q }
  | .dequeue, .picked q =>
    match (s.qps q).sendPkts with
    | [] => some { s with pc := .finish q }
    | skb :: _ => some { s.setQp q ArbQp.dequeue with pc := .sending q skb }
  | .xmit result, .sending q skb => some (xmitOnePacket s q skb result)
  | .requeue, .stopped q skb =>
    some { s.setQp q (ArbQp.queueHead skb) with pc := .idle }
  | .finish, .finish q =>
    let s := if (s.qps q).sendPkts ≠ [] then s.listAdd q else s
    some { s with pc := .idle }
  | .modify q valid reqState respState, _ =>
    some (s.setQp q fun qp => { qp with valid, reqState, respState })
  | _, _ => none

end Step

/-! ### Order -/

section Order

variable {ι : Type} [DecidableEq ι] {s s' : ArbSys ι} {q : ι} {skb : Skb}

/-- The packet of the QP that the arbiter holds. -/
def ArbPc.held (q : ι) : ArbPc ι → List Skb
  | .sending q' skb | .stopped q' skb => if q' = q then [skb] else []
  | _ => []

/-- What was queued is what was consumed, what the arbiter holds, and what still waits. -/
def InOrder (s : ArbSys ι) : Prop :=
  ∀ q, (s.qps q).queued = (s.qps q).fates.map Prod.fst ++ s.pc.held q ++ (s.qps q).sendPkts

theorem setQp_self (s : ArbSys ι) (q : ι) (f : ArbQp → ArbQp) :
    (s.setQp q f).qps q = f (s.qps q) := by
  simp [ArbSys.setQp]

theorem setQp_of_ne (s : ArbSys ι) {q q' : ι} (f : ArbQp → ArbQp) (h : q' ≠ q) :
    (s.setQp q f).qps q' = s.qps q' := by
  simp [ArbSys.setQp, h]

theorem accountSkb_log (n : ℤ) (skb : Skb) (fate : Fate) (qp : ArbQp) :
    (accountSkb n skb fate qp).queued = qp.queued ∧
      (accountSkb n skb fate qp).fates = qp.fates ++ [(skb, fate)] ∧
      (accountSkb n skb fate qp).sendPkts = qp.sendPkts := by
  unfold accountSkb
  split <;> exact ⟨rfl, rfl, rfl⟩

theorem listAdd_frame (s : ArbSys ι) (q : ι) :
    (s.listAdd q).qps = s.qps ∧ (s.listAdd q).pc = s.pc ∧ (s.listAdd q).adding = s.adding := by
  unfold ArbSys.listAdd
  split <;> exact ⟨rfl, rfl, rfl⟩

theorem InOrder.same (h : InOrder s) (hqps : s'.qps = s.qps)
    (hheld : ∀ q', s'.pc.held q' = s.pc.held q') : InOrder s' := by
  intro q'
  rw [hqps, hheld]
  exact h q'

theorem InOrder.set (h : InOrder s) (q : ι) {f : ArbQp → ArbQp} {qp : ArbQp}
    (hqps : s'.qps = (s.setQp q f).qps) (hqp : qp = f (s.qps q))
    (hheld : ∀ q', q' ≠ q → s'.pc.held q' = s.pc.held q')
    (hself : qp.queued = qp.fates.map Prod.fst ++ s'.pc.held q ++ qp.sendPkts) : InOrder s' := by
  intro q'
  rw [hqps]
  by_cases hne : q' = q
  · rw [hne, setQp_self, ← hqp]
    exact hself
  · rw [setQp_of_ne s _ hne, hheld q' hne]
    exact h q'

theorem held_sending_of_ne {q q' : ι} (skb : Skb) (h : q' ≠ q) :
    (ArbPc.sending q skb).held q' = [] :=
  if_neg (Ne.symm h)

theorem InOrder.account (h : InOrder s) (hpc : s.pc = .sending q skb) (n : ℤ) (fate : Fate)
    (hidle : ∀ q', s'.pc.held q' = [])
    (hqps : s'.qps = (s.setQp q (accountSkb n skb fate)).qps) : InOrder s' := by
  obtain ⟨hqueued, hfates, hsend⟩ := accountSkb_log n skb fate (s.qps q)
  refine h.set q hqps rfl (fun q' hne => ?_) ?_
  · rw [hidle, hpc, held_sending_of_ne skb hne]
  · rw [hqueued, hfates, hsend, hidle, h q, hpc]
    simp [ArbPc.held]

theorem InOrder.step (h : InOrder s) {a : ArbAct ι} (hstep : arbStep s a = some s') :
    InOrder s' := by
  unfold arbStep at hstep
  split at hstep
  · next q skb =>
    cases hstep
    refine h.set q (f := ArbQp.queueTail skb) rfl rfl (fun _ _ => rfl) ?_
    show (s.qps q).queued ++ [skb] = (s.qps q).fates.map Prod.fst ++ s.pc.held q ++
      ((s.qps q).sendPkts ++ [skb])
    rw [h q, List.append_assoc _ (s.qps q).sendPkts]
  · next q =>
    obtain ⟨hqps, hpc, -⟩ := listAdd_frame s q
    split at hstep
    · cases hstep
      exact h.same hqps fun q' => congrArg (ArbPc.held q') hpc
    · cases hstep
  · next hpc =>
    split at hstep
    · cases hstep
      exact h
    · cases hstep
      exact h.same rfl fun q' => by rw [hpc]; rfl
  · next q hpc =>
    split at hstep
    · cases hstep
      exact h.same rfl fun q' => by rw [hpc]; rfl
    · next skb rest hsend =>
      cases hstep
      refine h.set q (f := ArbQp.dequeue) rfl rfl (fun q' hne => ?_) ?_
      · rw [hpc]
        exact held_sending_of_ne skb hne
      · show (s.qps q).queued = (s.qps q).fates.map Prod.fst ++ (ArbPc.sending q skb).held q ++
          (s.qps q).sendPkts.tail
        rw [h q, hpc, hsend]
        simp [ArbPc.held]
  · next result q skb hpc =>
    cases hstep
    unfold xmitOnePacket
    split
    · exact h.account hpc _ .dropped (fun _ => rfl) rfl
    · split
      · exact h.account hpc _ .sent (fun _ => rfl) rfl
      · exact h.same rfl fun q' => by rw [hpc]; rfl
      · exact h.account hpc _ .failed (fun _ => rfl) rfl
  · next q skb hpc =>
    cases hstep
    refine h.set q (f := ArbQp.queueHead skb) rfl rfl (fun q' hne => ?_) ?_
    · rw [hpc]
      exact (if_neg (Ne.symm hne)).symm
    · show (s.qps q).queued = (s.qps q).fates.map Prod.fst ++ [] ++ skb :: (s.qps q).sendPkts
      rw [h q, hpc]
      simp [ArbPc.held]
  · next q hpc =>
    cases hstep
    refine h.same ?_ fun q' => by rw [hpc]; rfl
    split
    · exact (listAdd_frame s q).1
    · rfl
  · next q valid reqState respState =>
    cases hstep
    exact h.set q (f := fun qp => { qp with valid, reqState, respState }) rfl rfl
      (fun _ _ => rfl) (h q)
  · cases hstep

end Order

/-! ### The list -/

section Listed

variable {ι : Type} {s s' : ArbSys ι} {q : ι}

/-- The QP the arbiter is working on. -/
def ArbPc.worksOn (q : ι) : ArbPc ι → Prop
  | .idle => False
  | .picked q' | .sending q' _ | .stopped q' _ | .finish q' => q' = q

/-- A QP with packets to send is on the list, or it is about to be added by
`arbiter_skb_queue`, or the arbiter is working on it. -/
def Listed (s : ArbSys ι) : Prop :=
  ∀ q, (s.qps q).sendPkts ≠ [] → q ∈ s.qpList ∨ q ∈ s.adding ∨ s.pc.worksOn q

theorem Listed.keep (h : Listed s)
    (hsend : ∀ q', (s'.qps q').sendPkts ≠ [] → (s.qps q').sendPkts ≠ [])
    (hlist : ∀ q', q' ∈ s.qpList → q' ∈ s'.qpList) (hadd : ∀ q', q' ∈ s.adding → q' ∈ s'.adding)
    (hpc : ∀ q', (s'.qps q').sendPkts ≠ [] → s.pc.worksOn q' →
      q' ∈ s'.qpList ∨ q' ∈ s'.adding ∨ s'.pc.worksOn q') : Listed s' := by
  intro q' hq'
  rcases h q' (hsend q' hq') with hl | ha | hw
  · exact Or.inl (hlist q' hl)
  · exact Or.inr (Or.inl (hadd q' ha))
  · exact hpc q' hq' hw

variable [DecidableEq ι]

/-- The exits of `rxe_arbiter` on an error leave no QP behind: the QP has been put on the
list again since it was taken off, or is about to be, or it has no packets left. -/
def ErrorExitOk (s : ArbSys ι) (a : ArbAct ι) : Prop :=
  match a, s.pc with
  | .requeue, .stopped q _ => q ∈ s.qpList ∨ q ∈ s.adding
  | .xmit .error, .sending q skb =>
    (s.qps q).canSend skb → q ∈ s.qpList ∨ q ∈ s.adding ∨ (s.qps q).sendPkts = []
  | _, _ => True

theorem mem_listAdd (s : ArbSys ι) (q q' : ι) :
    q' ∈ (s.listAdd q).qpList ↔ q' ∈ s.qpList ∨ q' = q := by
  unfold ArbSys.listAdd
  split
  · next hmem =>
    refine ⟨Or.inl, fun h => ?_⟩
    rcases h with h | rfl
    · exact h
    · exact hmem
  · simp

theorem setQp_send (s : ArbSys ι) (q : ι) {f : ArbQp → ArbQp}
    (hf : ∀ qp, (f qp).sendPkts = qp.sendPkts) (q' : ι) :
    ((s.setQp q f).qps q').sendPkts = (s.qps q').sendPkts := by
  by_cases hne : q' = q
  · rw [hne, setQp_self, hf]
  · rw [setQp_of_ne s _ hne]

theorem Listed.step (h : Listed s) {a : ArbAct ι} (hok : ErrorExitOk s a)
    (hstep : arbStep s a = some s') : Listed s' := by
  unfold arbStep at hstep
  split at hstep
  · next q skb =>
    cases hstep
    intro q' hq'
    by_cases hne : q' = q
    · exact Or.inr (Or.inl (by rw [hne]; exact List.mem_cons_self))
    · have hsend : (s.qps q').sendPkts ≠ [] := by
        rw [← setQp_of_ne s (ArbQp.queueTail skb) hne]
        exact hq'
      exact (h q' hsend).imp_right (Or.imp_left (List.mem_cons_of_mem q))
  · next q =>
    obtain ⟨hqps, hpc, -⟩ := listAdd_frame s q
    obtain ⟨-, ⟨⟩⟩ := Option.ite_none_right_eq_some.1 hstep
    intro q' hq'
    have hsend : (s.qps q').sendPkts ≠ [] := by
      rw [← hqps]
      exact hq'
    by_cases hne : q' = q
    · exact Or.inl ((mem_listAdd s q q').2 (Or.inr hne))
    · rcases h q' hsend with hl | ha | hw
      · exact Or.inl ((mem_listAdd s q q').2 (Or.inl hl))
      · exact Or.inr (Or.inl ((List.mem_erase_of_ne hne).2 ha))
      · refine Or.inr (Or.inr ?_)
        show (s.listAdd q).pc.worksOn q'
        rwa [hpc]
  · next hpc =>
    split at hstep
    · cases hstep
      exact h
    · next q rest hlist =>
      cases hstep
      intro q' hq'
      rcases h q' hq' with hl | ha | hw
      · rw [hlist] at hl
        rcases List.mem_cons.1 hl with rfl | hl
        · exact Or.inr (Or.inr rfl)
        · exact Or.inl hl
      · exact Or.inr (Or.inl ha)
      · rw [hpc] at hw
        cases hw
  · next q hpc =>
    split at hstep
    · cases hstep
      refine h.keep (fun _ => id) (fun _ => id) (fun _ => id) fun q' _ hw => ?_
      rw [hpc] at hw
      exact Or.inr (Or.inr hw)
    · next skb rest hsend =>
      cases hstep
      refine h.keep (fun q' hq' => ?_) (fun _ => id) (fun _ => id) fun q' _ hw => ?_
      · by_cases hne : q' = q
        · rw [hne, hsend]
          exact List.cons_ne_nil _ _
        · rw [← setQp_of_ne s ArbQp.dequeue hne]
          exact hq'
      · rw [hpc] at hw
        exact Or.inr (Or.inr hw)
  · next result q skb hpc =>
    have haccount : ∀ fate q',
        ((s.setQp q (accountSkb s.maxSkbPerQp skb fate)).qps q').sendPkts = (s.qps q').sendPkts :=
      fun fate => setQp_send s q fun qp => (accountSkb_log _ skb fate qp).2.2
    cases hstep
    unfold xmitOnePacket
    split
    · refine h.keep (fun q' hq' => by rw [← haccount .dropped]; exact hq') (fun _ => id)
        (fun _ => id)
        fun q' _ hw => ?_
      rw [hpc] at hw
      exact Or.inr (Or.inr hw)
    · next hcan =>
      split
      · refine h.keep (fun q' hq' => by rw [← haccount .sent]; exact hq') (fun _ => id)
          (fun _ => id)
          fun q' _ hw => ?_
        rw [hpc] at hw
        exact Or.inr (Or.inr hw)
      · refine h.keep (fun _ => id) (fun _ => id) (fun _ => id) fun q' _ hw => ?_
        rw [hpc] at hw
        exact Or.inr (Or.inr hw)
      · -- the QP is not put back here
        refine h.keep (fun q' hq' => by rw [← haccount .failed]; exact hq') (fun _ => id)
          (fun _ => id)
          fun q' hq' hw => ?_
        rw [hpc] at hw
        obtain rfl : q = q' := hw
        unfold ErrorExitOk at hok
        rw [hpc] at hok
        rcases hok (by simpa using hcan) with hl | ha | hnil
        · exact Or.inl hl
        · exact Or.inr (Or.inl ha)
        · exact absurd ((haccount .failed q).trans hnil) hq'
  · next q skb hpc =>
    cases hstep
    unfold ErrorExitOk at hok
    rw [hpc] at hok
    intro q' hq'
    by_cases hne : q' = q
    · rw [hne]
      exact hok.imp_right Or.inl
    · have hsend : (s.qps q').sendPkts ≠ [] := by
        rw [← setQp_of_ne s (ArbQp.queueHead skb) hne]
        exact hq'
      rcases h q' hsend with hl | ha | hw
      · exact Or.inl hl
      · exact Or.inr (Or.inl ha)
      · rw [hpc] at hw
        exact absurd hw.symm hne
  · next q hpc =>
    cases hstep
    by_cases hsend : (s.qps q).sendPkts ≠ []
    · rw [if_pos hsend]
      obtain ⟨hqps, -, hadding⟩ := listAdd_frame s q
      refine h.keep (fun q' hq' => by rwa [← hqps])
        (fun q' hl => (mem_listAdd s q q').2 (Or.inl hl)) (fun q' ha => by rwa [hadding])
        fun q' _ hw => ?_
      rw [hpc] at hw
      exact Or.inl ((mem_listAdd s q q').2 (Or.inr hw.symm))
    · rw [if_neg hsend]
      refine h.keep (fun _ => id) (fun _ => id) (fun _ => id) fun q' hq' hw => ?_
      rw [hpc] at hw
      obtain rfl : q = q' := hw
      exact absurd hq' hsend
  · next q valid reqState respState =>
    cases hstep
    refine h.keep (fun q' hq' => ?_) (fun _ => id) (fun _ => id)
      fun q' _ hw => Or.inr (Or.inr hw)
    rw [← setQp_send s q (f := fun qp => { qp with valid, reqState, respState }) fun _ => rfl]
    exact hq'
  · cases hstep

end Listed

/-- In every run the packets of a QP are consumed in the order in which they were queued,
each once.  In a run whose error exits leave their QP on the list, every QP with packets to
send is on the list when the arbiter is idle and no packet is being queued for the QP. -/
theorem arbiter_listed {ι : Type} [DecidableEq ι] :
    (∀ s : ArbSys ι, Trace.Reach arbStep (fun _ _ => True) {} s → InOrder s) ∧
      ∀ s : ArbSys ι, Trace.Reach arbStep ErrorExitOk {} s → s.pc = .idle →
        ∀ q, q ∉ s.adding → (s.qps q).sendPkts ≠ [] → q ∈ s.qpList := by
  refine ⟨fun s hs => ?_, fun s hs hidle q hadd hsend => ?_⟩
  · exact hs.inv (fun _ => rfl) fun _ _ _ h _ hstep => h.step hstep
  · have hlisted : Listed s :=
      hs.inv (fun _ h => absurd rfl h) fun _ _ _ h hok hstep => h.step hok hstep
    rcases hlisted q hsend with hl | ha | hw
    · exact hl
    · exact absurd ha hadd
    · rw [hidle] at hw
      cases hw

/-- A second packet is queued while the first is being sent; then the interface is stopped,
and the QP stays on the list. -/
theorem arbiter_listed_requeued : ∃ s : ArbSys Unit,
    Trace.Steps arbStep ErrorExitOk
      [.queueTail () ⟨0, true⟩, .addToList (), .pick, .dequeue, .queueTail () ⟨1, true⟩,
        .addToList (), .xmit .stopped, .requeue] {} s ∧ s.pc = .idle ∧ s.adding = [] ∧
      (s.qps ()).sendPkts = [⟨0, true⟩, ⟨1, true⟩] ∧ () ∈ s.qpList := by
  have hsteps : ∃ s, Trace.Steps arbStep ErrorExitOk
      [.queueTail () ⟨0, true⟩, .addToList (), .pick, .dequeue, .queueTail () ⟨1, true⟩,
        .addToList (), .xmit .stopped, .requeue] {} s ∧ s.pc = .idle ∧ s.adding = [] ∧
        (s.qps ()).sendPkts = [⟨0, true⟩, ⟨1, true⟩] :=
    ⟨_, ⟨trivial, _, rfl, trivial, _, rfl, trivial, _, rfl, trivial, _, rfl, trivial, _, rfl,
      trivial, _, rfl, trivial, _, rfl, Or.inl List.mem_cons_self, _, rfl, rfl⟩, rfl, rfl, rfl⟩
  obtain ⟨s, hs, hidle, hadd, hsend⟩ := hsteps
  refine ⟨s, hs, hidle, hadd, hsend, arbiter_listed.2 s (hs.reach .start) hidle () ?_ ?_⟩
  · rw [hadd]
    exact List.not_mem_nil
  · rw [hsend]
    exact List.cons_ne_nil _ _

/-- One QP queues a packet and the interface is stopped: the packet is back in its queue, no
call is in progress, and the QP is not on the list. -/
theorem arbiter_strands :
    ∃ s : ArbSys Unit, Trace.Steps arbStep (fun _ _ => True) [.queueTail () ⟨0, true⟩,
        .addToList (), .pick, .dequeue, .xmit .stopped, .requeue] {} s ∧
      s.pc = .idle ∧ s.adding = [] ∧ (s.qps ()).sendPkts = [⟨0, true⟩] ∧ s.qpList = [] :=
  ⟨_, ⟨trivial, _, rfl, trivial, _, rfl, trivial, _, rfl, trivial, _, rfl, trivial, _, rfl,
    trivial, _, rfl, rfl⟩, rfl, rfl, rfl, rfl⟩

end Rxe
