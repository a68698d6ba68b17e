/-
The send queue of a kernel QP over whole runs.

A run interleaves calls of `rxe_requester` and `rxe_completer` with posted work requests,
responses, timeouts, the move to the error state and modify verbs other than a reset; the
ghost value lists the work requests posted so far with their numbers.

* `send_order` — WQEs leave the send queue in posting order, and the send completions are
  those of the departed WQEs that ask for one, once each and in the same order.
-/
import Rxe.PostSend
import Rxe.SendSide

namespace Rxe

/-- What can happen to the send side of a QP. -/
inductive SendAct
  | post (wrs : List SendWr)
  | requester
  | completer
  /-- a response arrives -/
  | recv (pkt : Pkt)
  /-- the retransmission timer expires -/
  | timer
  /-- another task moves the QP to the error state -/
  | error
  | modify (a : ModifyAttr)
  /-- memory, regions, the allocator and the CQs change -/
  | env (dev : Dev) (skb cq : List Bool)

/-- Number work requests from `k` on. -/
def number : ℕ → List SendWr → List (ℕ × SendWr)
  | _, [] => []
  | k, wr :: wrs => (k, wr) :: number (k + 1) wrs

/-- The requests of a list that `rxe_post_send` took: each of them moved `qp->ssn`. -/
def taken (c c' : Ctx) (wrs : List SendWr) : List (ℕ × SendWr) :=
  number (c.qp.ssn + 1) (wrs.take (c'.qp.ssn - c.qp.ssn))

def sendAct (c : Ctx) : SendAct → Option Ctx
  | .post wrs => some (rxePostSend c wrs).2
  | .requester => (rxeRequester c).map (·.2)
  | .completer => (rxeCompleter c).map (·.2)
  | .recv pkt => some (rxeCompQueuePkt c pkt)
  | .timer => some (retransmitTimer c)
  | .error => some (rxeQpError c)
  | .modify a => (rxeQpFromAttr c a).map (·.2)
  | .env dev skb cq => some { c with dev, skb, cq }

/-- A step of a run, with the requests posted so far. -/
def sendStep (k : Ctx × List (ℕ × SendWr)) (a : SendAct) : Option (Ctx × List (ℕ × SendWr)) :=
  (sendAct k.1 a).map fun c =>
    (c, k.2 ++ match a with
      | .post wrs => taken k.1 c wrs
      | _ => [])

/-- The QP is not reset, and the send CQ does not overflow. -/
def SendAct.mild : SendAct → Prop
  | .modify a => a.qpState ≠ some .reset
  | .env _ _ cq => ∀ b ∈ cq, b = true
  | _ => True

def SendOk (_ : Ctx × List (ℕ × SendWr)) (a : SendAct) : Prop := a.mild

/-- A QP from which nothing has been sent. -/
structure FreshSend (c : Ctx) : Prop where
  valid : c.qp.valid
  empty : c.qp.sq.live = []
  ssn : c.qp.ssn = 0
  room : c.roomy
  out : sendCqes c.out = []

/-! ### Posting -/

section Post

variable {c c' : Ctx}

theorem postSendLoop_frame (wrs : List SendWr) :
    ∀ c : Ctx, ∃ n ≤ wrs.length, ∃ sq,
      (postSendLoop c wrs).2 = { c with qp.sq := sq, qp.ssn := c.qp.ssn + n } ∧
      sq.live.map SendWqe.ident = c.queued ++ number (c.qp.ssn + 1) (wrs.take n) := by
  induction wrs with
  | nil => exact fun c => ⟨0, le_rfl, c.qp.sq, rfl, (List.append_nil _).symm⟩
  | cons wr wrs ih =>
    intro c
    rcases postSendLoop_cons c wr wrs with ⟨⟨-, htake⟩, hloop⟩ | ⟨-, hloop⟩
    · obtain ⟨slot, -, hpush⟩ := push_live_of_room htake.2
      obtain ⟨n, hn, sq, hc, hqueued⟩ := ih _
      rw [hloop]
      refine ⟨n + 1, Nat.succ_le_succ hn, sq, ?_, ?_⟩
      · rw [hc, Nat.add_comm n 1, ← Nat.add_assoc]
      · rw [hqueued, Ctx.queued, hpush, List.map_append, List.append_assoc]
        rfl
    · rw [hloop]
      exact ⟨0, Nat.zero_le _, c.qp.sq, rfl, (List.append_nil _).symm⟩

theorem rxePostSend_frame (c : Ctx) (wrs : List SendWr) :
    ∃ n ≤ wrs.length, ∃ sq es, (∀ e ∈ es, e = .runReq) ∧
      (rxePostSend c wrs).2 =
        { c with out := c.out ++ es, qp.sq := sq, qp.ssn := c.qp.ssn + n } ∧
      sq.live.map SendWqe.ident = c.queued ++ number (c.qp.ssn + 1) (wrs.take n) ∧
      (c.qp.req.state = .reset → sq = c.qp.sq) := by
  unfold rxePostSend
  split
  · have hsame : c = { c with out := c.out ++ [], qp.ssn := c.qp.ssn + 0 } := by
      rw [List.append_nil]
      rfl
    exact ⟨0, Nat.zero_le _, c.qp.sq, [], fun _ h => (nomatch h), hsame, (List.append_nil _).symm,
      fun _ => rfl⟩
  · next hstate =>
    obtain ⟨n, hn, sq, hc, hqueued⟩ := postSendLoop_frame wrs c
    refine ⟨n, hn, sq, [.runReq], fun e he => List.mem_singleton.1 he, ?_, hqueued,
      fun hreset => ?_⟩
    · generalize postSendLoop c wrs = r at hc
      obtain ⟨ok, c₁⟩ := r
      exact congrArg (Ctx.emit · .runReq) hc
    · exact absurd (Or.inr (Or.inr (Or.inl hreset))) hstate

/-- What each request put in the queue keeps, and the call of the requester task, the verb keeps. -/
theorem rxePostSend_inv {P : Ctx → Prop}
    (hpush : ∀ c wr, c.qp.sq.full = false → P c → P { c with
      qp.sq := c.qp.sq.push (initSendWqe c.qp.type c.dev wr (wrOpcodeMask wr.opcode c.qp.type)
        (sgeTotal wr.sgList) (c.qp.ssn + 1))
      qp.ssn := c.qp.ssn + 1 })
    (hemit : ∀ c, P c → P (c.emit .runReq)) (h : P c) (wrs : List SendWr) :
    P (rxePostSend c wrs).2 := by
  have hloop : P (postSendLoop c wrs).2 := by
    induction wrs generalizing c with
    | nil => exact h
    | cons wr wrs ih =>
      rcases postSendLoop_cons c wr wrs with ⟨⟨-, htake⟩, hloop⟩ | ⟨-, hloop⟩
      · rw [hloop]
        exact ih (hpush c wr htake.2 h)
      · rw [hloop]
        exact h
  unfold rxePostSend
  split
  · exact h
  · exact hemit _ hloop

end Post

/-! ### Runs -/

theorem number_fst (wrs : List SendWr) :
    ∀ k, (number k wrs).map Prod.fst = List.range' k wrs.length := by
  induction wrs with
  | nil => exact fun _ => rfl
  | cons wr wrs ih => exact fun k => congrArg (k :: ·) (ih (k + 1))

/-- The departed WQEs are `gone`, the others are queued, and the completions are those of
the departed ones. -/
structure Ordered (sigAll : Bool) (gone : List (ℕ × SendWr)) (k : Ctx × List (ℕ × SendWr)) :
    Prop where
  split : k.2 = gone ++ k.1.queued
  cqes : (sendCqes k.1.out).map names = expected sigAll gone
  numbers : k.2.map Prod.fst = List.range' 1 k.1.qp.ssn
  sigAll : k.1.qp.sqSigAll = sigAll
  use : k.1.inUse
  room : k.1.roomy

variable {sigAll : Bool} {gone : List (ℕ × SendWr)} {k k' : Ctx × List (ℕ × SendWr)}

theorem Ordered.side {c' : Ctx} (h : Ordered sigAll gone k) (hside : SendSide k.1 c') :
    ∃ d, Ordered sigAll (gone ++ d) (c', k.2) := by
  obtain ⟨d, es, hout, -, hqueued, hcqes⟩ := hside.order
  refine ⟨d, ?_, ?_, ?_, hside.sigAll.trans h.sigAll, hside.inUse h.use, hside.roomy h.room⟩
  · rw [h.split, hqueued, List.append_assoc]
  · rw [hout, sendCqes_append, List.map_append, h.cqes, hcqes h.room, h.sigAll, expected_append]
  · exact h.numbers.trans (by rw [hside.ssn])

theorem Ordered.post (h : Ordered sigAll gone k) (wrs : List SendWr) :
    Ordered sigAll gone
      ((rxePostSend k.1 wrs).2, k.2 ++ taken k.1 (rxePostSend k.1 wrs).2 wrs) := by
  obtain ⟨n, hn, sq, es, hes, hc, hqueued, hreset⟩ := rxePostSend_frame k.1 wrs
  have hquiet : sendCqes es = [] := List.filterMap_eq_nil_iff.2 fun e he => by rw [hes e he]; rfl
  have htaken : taken k.1 (rxePostSend k.1 wrs).2 wrs = number (k.1.qp.ssn + 1) (wrs.take n) := by
    rw [taken, hc, Nat.add_sub_cancel_left]
  rw [htaken, hc]
  refine ⟨?_, ?_, ?_, h.sigAll, ⟨h.use.1, fun hr => ?_⟩, h.room⟩
  · rw [Ctx.queued, hqueued, h.split, List.append_assoc]
  · rw [sendCqes_append, hquiet, List.append_nil]
    exact h.cqes
  · rw [List.map_append, h.numbers, number_fst, List.length_take_of_le hn,
      Nat.add_comm k.1.qp.ssn 1, List.range'_append_1]
  · show sq.live = []
    rw [hreset hr]
    exact h.use.2 hr

theorem sendAct_side {c c' : Ctx} {a : SendAct} (huse : c.inUse) (hmild : a.mild)
    (hpost : ∀ wrs, a ≠ .post wrs) (henv : ∀ dev skb cq, a ≠ .env dev skb cq)
    (h : sendAct c a = some c') : SendSide c c' := by
  cases a with
  | post wrs => exact absurd rfl (hpost wrs)
  | requester =>
    obtain ⟨r, hcall, rfl⟩ := Option.map_eq_some_iff.1 h
    exact rxeRequester_rel sideRel huse hcall
  | completer =>
    obtain ⟨r, hcall, rfl⟩ := Option.map_eq_some_iff.1 h
    exact rxeCompleter_rel sideRel huse hcall
  | recv pkt =>
    cases h
    exact .then_emit (.of_view rfl) rfl rfl
  | timer =>
    cases h
    unfold retransmitTimer
    split
    · exact .then_emit (.of_view rfl) rfl rfl
    · exact .refl c
  | error =>
    cases h
    exact rxeQpError_rel sideRel.coarse c
  | modify a =>
    obtain ⟨r, hcall, rfl⟩ := Option.map_eq_some_iff.1 h
    exact rxeQpFromAttr_side huse hmild hcall
  | env dev skb cq => exact absurd rfl (henv dev skb cq)

theorem Ordered.step {a : SendAct} (h : Ordered sigAll gone k) (hok : SendOk k a)
    (hstep : sendStep k a = some k') :
    (∃ d, Ordered sigAll (gone ++ d) k') ∧ k.2 <+: k'.2 := by
  obtain ⟨c', hact, rfl⟩ := Option.map_eq_some_iff.1 hstep
  refine ⟨?_, List.prefix_append _ _⟩
  cases a with
  | post wrs =>
    cases hact
    exact ⟨[], by rw [List.append_nil]; exact h.post wrs⟩
  | env dev skb cq =>
    cases hact
    exact ⟨[], by dsimp only; rw [List.append_nil, List.append_nil]; exact { h with room := hok }⟩
  | requester | completer | recv | timer | error | modify =>
    obtain ⟨d, hord⟩ := h.side (sendAct_side h.use hok nofun nofun hact)
    exact ⟨d, by dsimp only; rw [List.append_nil]; exact hord⟩

open Trace in
theorem Ordered.reach (h : Ordered sigAll gone k) (hreach : Reach sendStep SendOk k k') :
    ∃ d, Ordered sigAll (gone ++ d) k' ∧ k.2 <+: k'.2 := by
  refine Reach.inv (I := fun k' => ∃ d, Ordered sigAll (gone ++ d) k' ∧ k.2 <+: k'.2)
    ⟨[], by rw [List.append_nil]; exact h, List.prefix_rfl⟩ ?_ hreach
  rintro k₁ a k₂ ⟨d, hord, hpre⟩ hok hstep
  obtain ⟨⟨d', hord'⟩, hpre'⟩ := hord.step hok hstep
  exact ⟨d ++ d', by rw [← List.append_assoc]; exact hord', hpre.trans hpre'⟩

theorem FreshSend.ordered {c : Ctx} (h : FreshSend c) : Ordered c.qp.sqSigAll [] (c, []) where
  split := by
    rw [Ctx.queued, h.empty]
    rfl
  cqes := by
    rw [h.out]
    rfl
  numbers := by
    rw [h.ssn]
    rfl
  sigAll := rfl
  use := ⟨h.valid, fun _ => h.empty⟩
  room := h.room

open Trace in
/-- At any two times of a run, the work requests posted so far are those that have left the
send queue followed by those that are queued; between the two times, more may have left, in
posting order.  The send completions are exactly those of the departed WQEs that are
signaled, in the same order.  No two posted WQEs have the same number. -/
theorem send_order (c₀ : Ctx) (k₁ k₂ : Ctx × List (ℕ × SendWr)) (h₀ : FreshSend c₀)
    (h₁ : Reach sendStep SendOk (c₀, []) k₁) (h₂ : Reach sendStep SendOk k₁ k₂) :
    k₁.2 <+: k₂.2 ∧ (k₂.2.map Prod.fst).Nodup ∧
      ∃ gone later, k₁.2 = gone ++ k₁.1.queued ∧ k₂.2 = (gone ++ later) ++ k₂.1.queued ∧
        (sendCqes k₁.1.out).map names = expected c₀.qp.sqSigAll gone ∧
        (sendCqes k₂.1.out).map names = expected c₀.qp.sqSigAll (gone ++ later) := by
  obtain ⟨gone, hord₁, -⟩ := h₀.ordered.reach h₁
  obtain ⟨later, hord₂, hpre⟩ := hord₁.reach h₂
  refine ⟨hpre, ?_, gone, later, hord₁.split, hord₂.split, hord₁.cqes, hord₂.cqes⟩
  rw [hord₂.numbers]
  exact List.nodup_range'

/-- A request whose completion is to be reported. -/
def orderWr : SendWr := { wrId := 5, opcode := .send, sendFlags := { signaled := true } }

def orderQp : Ctx :=
  { qp := { type := .rc, sq := ⟨[], List.replicate 4 { ibwr := orderWr }⟩, rq := ⟨[], [{}]⟩,
            req := { state := .ready } } }

def orderAck : Pkt := { opcode := .rcAcknowledge, psn := 1, aeth := ⟨aethAckUnlimited, 2⟩ }

open Trace in
/-- Two requests are posted and sent; one acknowledgement completes both. -/
theorem send_order_two :
    ∃ k, Reach sendStep SendOk (orderQp, []) k ∧ k.1.queued = [] ∧
      (sendCqes k.1.out).map names = [(5, 1, orderWr)] ∧
      ∃ gone, k.2 = gone ++ k.1.queued ∧ (sendCqes k.1.out).map names = expected false gone := by
  have hreach : ∃ k, Reach sendStep SendOk (orderQp, []) k ∧ k.1.queued = [] ∧
      (sendCqes k.1.out).map names = [(5, 1, orderWr)] :=
    ⟨_, .next (.next (.next (.next (.next .start
      (a := .post [orderWr, { opcode := .send }]) trivial rfl)
      (a := .requester) trivial rfl) (a := .requester) trivial rfl)
      (a := .recv orderAck) trivial rfl) (a := .completer) trivial rfl, rfl, rfl⟩
  obtain ⟨k, hreach, hqueued, hcqes⟩ := hreach
  obtain ⟨-, -, gone, -, hsplit, -, hexp, -⟩ := send_order orderQp k k
    ⟨rfl, rfl, rfl, fun _ h => (nomatch h), rfl⟩ hreach .start
  exact ⟨k, hreach, hqueued, hcqes, gone, hsplit, hexp⟩

end Rxe
