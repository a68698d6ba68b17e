/-
Posting from user space (`librxe`, `rxe.c`).

The send queue of a user QP is mapped into the process.  `rxe_post_send` of the library
validates a work request, writes it into the slot of the producer, advances the producer,
and rings a doorbell: a call of the kernel's `rxe_post_send` without a work request.  The
functions are those of the driver under the same names; here they have the prefix `lib`.

The library and the driver differ in what they test.  The driver looks the opcode up in the
row of the QP type, allows inline data only for some opcodes, and takes nothing while the
QP is not ready; the library tests none of these, and the doorbell that would notice the
last comes after the request has been queued.

* `SendWqe.taskView` — what the requester and the completer read of a WQE;
* `libPostSend_live`, `rxePostSend_live` — what the two leave in the queue;
* `PostsAgree` — the two agree on a work request;
* `posts_agree_iff` — when they do.
-/
import Rxe.Qp

namespace Rxe

variable {wr : SendWr} {type : QpType}

/-! ### The library -/

/-- The opcodes that `enum ibv_wr_opcode` has too. -/
def WrOpcode.inLib : WrOpcode → Bool
  | .rdmaWrite | .rdmaWriteWithImm | .send | .sendWithImm | .rdmaRead | .atomicCmpAndSwp
  | .atomicFetchAndAdd => true
  | _ => false

/-- `struct rxe_qp` of the library, without the queue, which is the one of the kernel QP. -/
structure LibQp where
  type : QpType
  maxSge : ℕ
  maxInline : ℕ
  ssn : ℕ := 0
  deriving DecidableEq, Repr

/-- `validate_send_wr` -/
def libValidateSendWr (qp : LibQp) (wr : SendWr) (length : ℕ) : Bool :=
  !(qp.maxSge < wr.sgList.length ||
    ((wr.opcode = .atomicCmpAndSwp || wr.opcode = .atomicFetchAndAdd) &&
      (length < 8 || wr.remoteAddr % 8 ≠ 0)) ||
    (wr.sendFlags.inline && qp.maxInline < length))

/-- `convert_send_wr`: what is not copied is zero, the SGE list a null pointer. -/
def convertSendWr (uwr : SendWr) : SendWr :=
  let kwr : SendWr :=
    { wrId := uwr.wrId, opcode := uwr.opcode, sendFlags := uwr.sendFlags, ex := uwr.ex }
  match uwr.opcode with
  | .rdmaWrite | .rdmaWriteWithImm | .rdmaRead =>
    { kwr with remoteAddr := uwr.remoteAddr, rkey := uwr.rkey }
  | .send | .sendWithImm => { kwr with remoteQpn := uwr.remoteQpn, remoteQkey := uwr.remoteQkey }
  | .atomicCmpAndSwp | .atomicFetchAndAdd =>
    { kwr with remoteAddr := uwr.remoteAddr, compareAdd := uwr.compareAdd, swap := uwr.swap
               atomicRkey := uwr.atomicRkey }
  | _ => kwr

/-- `init_send_wqe`, on the old contents of the slot; `mask` is left to the requester. -/
def libInitSendWqe (type : QpType) (dev : Dev) (wr : SendWr) (length ssn : ℕ) (slot : SendWqe) :
    SendWqe :=
  { slot with
    ibwr := convertSendWr wr
    av := if type = .ud then wr.ah else slot.av
    iova := wr.remoteAddr
    dma :=
      { length
        resid := length
        sge := if wr.sendFlags.inline then [] else wr.sgList
        inlineData := if wr.sendFlags.inline then inlineBytes dev wr.sgList else [] }
    state := .posted
    ssn }

/-- `post_one_send`: the slot is written before the queue is found full. -/
def libPostOneSend (qp : LibQp) (c : Ctx) (wr : SendWr) : Bool × LibQp × Ctx :=
  let length := sgeTotal wr.sgList
  if libValidateSendWr qp wr length = false then (false, qp, c)
  else
    let sq := c.qp.sq.modify c.qp.sq.live.length (libInitSendWqe qp.type c.dev wr length qp.ssn)
    let qp := { qp with ssn := qp.ssn + 1 }
    if sq.full then (false, qp, { c with qp.sq := sq })
    else (true, qp, { c with qp.sq := sq.push id })

def libPostSendLoop (qp : LibQp) (c : Ctx) : List SendWr → Bool × LibQp × Ctx
  | [] => (true, qp, c)
  | wr :: wrs =>
    match libPostOneSend qp c wr with
    | (false, qp, c) => (false, qp, c)
    | (true, qp, c) => libPostSendLoop qp c wrs

/-- `post_send_db`: the kernel's `rxe_post_send` with a null work request. -/
def postSendDb (c : Ctx) : Bool × Ctx := rxePostSend c []

/-- `rxe_post_send` -/
def libPostSend (qp : LibQp) (c : Ctx) (wrs : List SendWr) : Bool × LibQp × Ctx :=
  let (rc, qp, c) := libPostSendLoop qp c wrs
  let (db, c) := postSendDb c
  (db && rc, qp, c)

/-! ### What the tasks read of a WQE -/

/-- The fields of a WQE that the requester and the completer read: the extended headers are
built from the parts of the request that belong to its opcode and to the QP type. -/
structure TaskView where
  wrId : ℕ
  opcode : WrOpcode
  sendFlags : SendFlags
  ex : ℕ
  rdmaRkey : Option ℕ
  atomic : Option (ℕ × ℕ × ℕ)
  remoteQp : Option (ℕ × ℕ)
  pkeyIndex : Option ℕ
  av : Option (List UInt8)
  iova : ℕ
  dma : DmaInfo
  state : WqeState
  deriving DecidableEq, Repr

def WrOpcode.isRdma : WrOpcode → Bool
  | .rdmaWrite | .rdmaWriteWithImm | .rdmaRead | .rdmaReadWithInv => true
  | _ => false

def WrOpcode.isAtomic : WrOpcode → Bool
  | .atomicCmpAndSwp | .atomicFetchAndAdd => true
  | _ => false

/-- The QP types that send datagrams. -/
def QpType.datagram : QpType → Bool
  | .ud | .smi | .gsi => true
  | .rc | .uc => false

def SendWqe.taskView (type : QpType) (w : SendWqe) : TaskView where
  wrId := w.ibwr.wrId
  opcode := w.ibwr.opcode
  sendFlags := w.ibwr.sendFlags
  ex := w.ibwr.ex
  rdmaRkey := if w.ibwr.opcode.isRdma then some w.ibwr.rkey else none
  atomic :=
    if w.ibwr.opcode.isAtomic then some (w.ibwr.compareAdd, w.ibwr.swap, w.ibwr.atomicRkey)
    else none
  remoteQp := if type.datagram then some (w.ibwr.remoteQpn, w.ibwr.remoteQkey) else none
  pkeyIndex := if type = .gsi then some w.ibwr.pkeyIndex else none
  av := if type.datagram then some w.av else none
  iova := w.iova
  dma := w.dma
  state := w.state

/-! What `convert_send_wr` keeps: the fields of every request, and those that belong to the
opcode. -/

theorem convertSendWr_frame (wr : SendWr) :
    (convertSendWr wr).opcode = wr.opcode ∧ (convertSendWr wr).wrId = wr.wrId ∧
      (convertSendWr wr).sendFlags = wr.sendFlags ∧ (convertSendWr wr).ex = wr.ex ∧
      (convertSendWr wr).pkeyIndex = 0 := by
  unfold convertSendWr
  split <;> exact ⟨rfl, rfl, rfl, rfl, rfl⟩

theorem convertSendWr_rdma (hlib : wr.opcode.inLib) (h : wr.opcode.isRdma) :
    (convertSendWr wr).rkey = wr.rkey := by
  unfold convertSendWr
  cases hop : wr.opcode <;> rw [hop] at h hlib <;>
    first | rfl | exact absurd h (by decide) | exact absurd hlib (by decide)

theorem convertSendWr_atomic (h : wr.opcode.isAtomic) :
    (convertSendWr wr).compareAdd = wr.compareAdd ∧ (convertSendWr wr).swap = wr.swap ∧
      (convertSendWr wr).atomicRkey = wr.atomicRkey := by
  unfold convertSendWr
  cases hop : wr.opcode <;> rw [hop] at h <;>
    first | exact ⟨rfl, rfl, rfl⟩ | exact absurd h (by decide)

theorem convertSendWr_datagram (hlib : wr.opcode.inLib)
    (hmask : wrOpcodeMask wr.opcode type ≠ {}) (h : type.datagram) :
    (convertSendWr wr).remoteQpn = wr.remoteQpn ∧
      (convertSendWr wr).remoteQkey = wr.remoteQkey := by
  unfold convertSendWr
  cases type with
  | rc | uc => exact absurd h (by decide)
  | ud | smi | gsi =>
    cases hop : wr.opcode <;> rw [hop] at hmask hlib <;>
      first | exact ⟨rfl, rfl⟩ | exact absurd hlib (by decide) | exact absurd rfl hmask

/-- The two write the same into a slot, as far as the tasks read it, if the opcode is one of
the QP type and the QP is not one of the two whose address vector the library leaves out. -/
theorem taskView_init_iff (dev : Dev) (mask : WrMask)
    (length ssn libSsn : ℕ) (slot : SendWqe) (hlib : wr.opcode.inLib)
    (hmask : wrOpcodeMask wr.opcode type ≠ {}) :
    (libInitSendWqe type dev wr length libSsn slot).taskView type =
        (initSendWqe type dev wr mask length ssn slot).taskView type ↔
      (type = .smi ∨ type = .gsi → slot.av = wr.ah) ∧ (type = .gsi → wr.pkeyIndex = 0) := by
  obtain ⟨hop, hid, hflags, hex, hpkey⟩ := convertSendWr_frame wr
  -- what the library leaves out no task reads at this opcode
  have hrdma : (if wr.opcode.isRdma then some (convertSendWr wr).rkey else none) =
      if wr.opcode.isRdma then some wr.rkey else none := by
    by_cases h : wr.opcode.isRdma
    · rw [convertSendWr_rdma hlib h]
    · rw [if_neg h, if_neg h]
  have hatomic : (if wr.opcode.isAtomic then some ((convertSendWr wr).compareAdd,
      (convertSendWr wr).swap, (convertSendWr wr).atomicRkey) else none) =
      if wr.opcode.isAtomic then some (wr.compareAdd, wr.swap, wr.atomicRkey) else none := by
    by_cases h : wr.opcode.isAtomic
    · obtain ⟨hadd, hswap, hrkey⟩ := convertSendWr_atomic h
      rw [hadd, hswap, hrkey]
    · rw [if_neg h, if_neg h]
  have hremote : (if type.datagram then some ((convertSendWr wr).remoteQpn,
      (convertSendWr wr).remoteQkey) else none) =
      if type.datagram then some (wr.remoteQpn, wr.remoteQkey) else none := by
    by_cases h : type.datagram
    · obtain ⟨hqpn, hqkey⟩ := convertSendWr_datagram hlib hmask h
      rw [hqpn, hqkey]
    · rw [if_neg h, if_neg h]
  unfold SendWqe.taskView libInitSendWqe initSendWqe
  rw [TaskView.mk.injEq, hop, hid, hflags, hex, hpkey, hrdma, hatomic, hremote]
  cases type with
  | rc | uc | ud | smi => simp [QpType.datagram]
  | gsi =>
    simp only [QpType.datagram, reduceCtorEq, or_true, if_true, if_false, true_and,
      and_true, Option.some.injEq, forall_const]
    exact ⟨fun h => ⟨h.2, h.1.symm⟩, fun h => ⟨h.2.symm, h.1⟩⟩

/-! ### What is left in the queue -/

/-- The test with which the driver refuses to take requests at all. -/
def Ctx.takesRequests (c : Ctx) : Prop :=
  ¬ (c.qp.valid = false ∨ c.qp.req.state = .error ∨ c.qp.req.state = .reset ∨
    c.qp.req.state = .init)

instance (c : Ctx) : Decidable c.takesRequests := inferInstanceAs (Decidable (¬ _))

/-- The driver allows a request of this opcode, with inline data if it has any. -/
def SendWr.allowed (wr : SendWr) (type : QpType) : Prop :=
  wrOpcodeMask wr.opcode type ≠ {} ∧
    (wr.sendFlags.inline → (wrOpcodeMask wr.opcode type).inline)

/-- The tests that both make. -/
def Ctx.wellFormed (c : Ctx) (wr : SendWr) : Prop :=
  wr.sgList.length ≤ c.qp.sqMaxSge ∧
    (wr.opcode.isAtomic → 8 ≤ sgeTotal wr.sgList ∧ wr.remoteAddr % 8 = 0) ∧
    (wr.sendFlags.inline → sgeTotal wr.sgList ≤ c.qp.sqMaxInline)

/-- The library's view of a QP. -/
def Ctx.libQp (c : Ctx) (ssn : ℕ) : LibQp :=
  { type := c.qp.type, maxSge := c.qp.sqMaxSge, maxInline := c.qp.sqMaxInline, ssn }

theorem libValidate_iff {c : Ctx} {ssn : ℕ} :
    libValidateSendWr (c.libQp ssn) wr (sgeTotal wr.sgList) = true ↔ c.wellFormed wr := by
  unfold libValidateSendWr Ctx.libQp Ctx.wellFormed WrOpcode.isAtomic
  cases wr.opcode <;> cases wr.sendFlags.inline <;> simp [and_assoc]

theorem wrOpcodeMask_atomic {op : WrOpcode} (h : wrOpcodeMask op type ≠ {}) :
    (wrOpcodeMask op type).atomic = op.isAtomic := by
  cases op <;> cases type <;> first | rfl | exact absurd rfl h

theorem validate_iff {c : Ctx} (h : wrOpcodeMask wr.opcode c.qp.type ≠ {}) :
    validateSendWr c.qp wr (wrOpcodeMask wr.opcode c.qp.type) (sgeTotal wr.sgList) = true ↔
      c.wellFormed wr := by
  unfold validateSendWr Ctx.wellFormed
  rw [wrOpcodeMask_atomic h]
  cases wr.opcode.isAtomic <;> cases wr.sendFlags.inline <;> simp [and_assoc]

theorem postSendDb_eq (c : Ctx) :
    (postSendDb c).1 = decide c.takesRequests ∧ (postSendDb c).2.qp.sq = c.qp.sq := by
  unfold postSendDb rxePostSend Ctx.takesRequests
  split
  · next h => exact ⟨by simp [h], rfl⟩
  · next h => exact ⟨by simp only [h]; rfl, rfl⟩

/-- The driver takes a request. -/
def Ctx.kernelTakes (c : Ctx) (wr : SendWr) : Prop :=
  c.takesRequests ∧ wr.allowed c.qp.type ∧ c.wellFormed wr ∧ c.qp.sq.full = false

/-- The library takes a request, before it rings the doorbell. -/
def Ctx.libTakes (c : Ctx) (wr : SendWr) : Prop := c.wellFormed wr ∧ c.qp.sq.full = false

theorem postSendLoop_cons (c : Ctx) (wr : SendWr) (wrs : List SendWr) :
    ((wr.allowed c.qp.type ∧ c.libTakes wr) ∧ postSendLoop c (wr :: wrs) = postSendLoop { c with
      qp.sq := c.qp.sq.push (initSendWqe c.qp.type c.dev wr (wrOpcodeMask wr.opcode c.qp.type)
        (sgeTotal wr.sgList) (c.qp.ssn + 1))
      qp.ssn := c.qp.ssn + 1 } wrs) ∨
    ¬ (wr.allowed c.qp.type ∧ c.libTakes wr) ∧ postSendLoop c (wr :: wrs) = (false, c) := by
  rw [postSendLoop, postOneSend]
  by_cases hallowed : wr.allowed c.qp.type
  · have hrow : ¬ (wrOpcodeMask wr.opcode c.qp.type = {} ∨
        (wr.sendFlags.inline ∧ (wrOpcodeMask wr.opcode c.qp.type).inline = false)) := by
      rintro (hempty | ⟨hinline, hno⟩)
      · exact hallowed.1 hempty
      · exact absurd ((hallowed.2 hinline).symm.trans hno) (by decide)
    rw [if_neg hrow]
    by_cases htake : c.libTakes wr
    · have hvalid := (validate_iff hallowed.1).2 htake.1
      rw [if_neg (by simp [hvalid, htake.2])]
      exact Or.inl ⟨⟨hallowed, htake⟩, rfl⟩
    · have hno : validateSendWr c.qp wr (wrOpcodeMask wr.opcode c.qp.type)
          (sgeTotal wr.sgList) = false ∨ c.qp.sq.full = true := by
        by_contra hcon
        rw [not_or, Bool.not_eq_false, Bool.not_eq_true] at hcon
        exact htake ⟨(validate_iff hallowed.1).1 hcon.1, hcon.2⟩
      rw [if_pos hno]
      exact Or.inr ⟨fun h => htake h.2, rfl⟩
  · have hrow : wrOpcodeMask wr.opcode c.qp.type = {} ∨
        (wr.sendFlags.inline ∧ (wrOpcodeMask wr.opcode c.qp.type).inline = false) := by
      by_contra hcon
      rw [not_or] at hcon
      refine hallowed ⟨hcon.1, fun hinline => ?_⟩
      by_contra hno
      exact hcon.2 ⟨hinline, Bool.eq_false_iff.2 hno⟩
    rw [if_pos hrow]
    exact Or.inr ⟨fun h => hallowed h.1, rfl⟩

theorem libPostSendLoop_cons (c : Ctx) (ssn : ℕ) (wr : SendWr) (wrs : List SendWr) :
    (c.libTakes wr ∧ ∃ c' : Ctx, c' = { c with
        qp.sq := c.qp.sq.push (libInitSendWqe c.qp.type c.dev wr (sgeTotal wr.sgList) ssn) } ∧
      libPostSendLoop (c.libQp ssn) c (wr :: wrs) = libPostSendLoop (c'.libQp (ssn + 1)) c' wrs) ∨
    ¬ c.libTakes wr ∧ ∃ qp c', libPostSendLoop (c.libQp ssn) c (wr :: wrs) = (false, qp, c') ∧
      c'.qp.sq.live = c.qp.sq.live := by
  rw [libPostSendLoop, libPostOneSend]
  dsimp only
  by_cases hwell : c.wellFormed wr
  · rw [if_neg (by rw [libValidate_iff.2 hwell]; decide)]
    obtain ⟨hlive, hfull⟩ := c.qp.sq.modify_producer
      (libInitSendWqe (c.libQp ssn).type c.dev wr (sgeTotal wr.sgList) (c.libQp ssn).ssn)
    rw [hfull]
    by_cases hroom : c.qp.sq.full = true
    · rw [if_pos hroom]
      exact Or.inr ⟨fun h => absurd (hroom.symm.trans h.2) (by decide), _, _, rfl, hlive⟩
    · rw [if_neg hroom, RingBuf.push_id_modify]
      exact Or.inl ⟨⟨hwell, Bool.eq_false_iff.2 hroom⟩, _, rfl, rfl⟩
  · rw [if_pos (Bool.eq_false_iff.2 fun h => hwell (libValidate_iff.1 h))]
    exact Or.inr ⟨fun h => hwell h.1, _, _, rfl, rfl⟩

/-- What the driver does with one request. -/
theorem rxePostSend_live (c : Ctx) (wr : SendWr) :
    (c.kernelTakes wr ∧ (rxePostSend c [wr]).1 = true ∧
      (rxePostSend c [wr]).2.qp.sq = c.qp.sq.push (initSendWqe c.qp.type c.dev wr
        (wrOpcodeMask wr.opcode c.qp.type) (sgeTotal wr.sgList) (c.qp.ssn + 1))) ∨
    (¬ c.kernelTakes wr ∧ (rxePostSend c [wr]).1 = false ∧
      (rxePostSend c [wr]).2.qp.sq = c.qp.sq) := by
  unfold rxePostSend
  by_cases hready : c.takesRequests
  · rw [if_neg hready]
    rcases postSendLoop_cons c wr [] with ⟨htakes, hloop⟩ | ⟨hno, hloop⟩
    · rw [hloop]
      exact Or.inl ⟨⟨hready, htakes⟩, rfl, rfl⟩
    · rw [hloop]
      exact Or.inr ⟨fun h => hno h.2, rfl, rfl⟩
  · rw [if_pos (not_not.1 hready)]
    exact Or.inr ⟨fun h => hready h.1, rfl, rfl⟩

/-- What the library does with one request. -/
theorem libPostSend_live (c : Ctx) (ssn : ℕ) (wr : SendWr) :
    (c.libTakes wr ∧ (libPostSend (c.libQp ssn) c [wr]).1 = decide c.takesRequests ∧
      (libPostSend (c.libQp ssn) c [wr]).2.2.qp.sq =
        c.qp.sq.push (libInitSendWqe c.qp.type c.dev wr (sgeTotal wr.sgList) ssn)) ∨
    (¬ c.libTakes wr ∧ (libPostSend (c.libQp ssn) c [wr]).1 = false ∧
      (libPostSend (c.libQp ssn) c [wr]).2.2.qp.sq.live = c.qp.sq.live) := by
  unfold libPostSend
  rcases libPostSendLoop_cons c ssn wr [] with
    ⟨htakes, c', rfl, hloop⟩ | ⟨hno, qp, c', hloop, hlive⟩
  · rw [hloop]
    exact Or.inl ⟨htakes, (Bool.and_true _).trans (postSendDb_eq _).1, (postSendDb_eq _).2⟩
  · rw [hloop]
    exact Or.inr ⟨hno, Bool.and_false _, (congrArg RingBuf.live (postSendDb_eq _).2).trans hlive⟩

/-! ### Agreement -/

/-- The library and the driver agree on a work request: both accept it or both reject it;
an accepted request is queued by both, with the same WQE as far as the tasks read it; and a
rejected one leaves the queue as it is. -/
structure PostsAgree (c : Ctx) (ssn : ℕ) (wr : SendWr) : Prop where
  accepts : (libPostSend (c.libQp ssn) c [wr]).1 = (rxePostSend c [wr]).1
  same : (libPostSend (c.libQp ssn) c [wr]).1 = true → ∃ w w' : SendWqe,
    (libPostSend (c.libQp ssn) c [wr]).2.2.qp.sq.live = c.qp.sq.live ++ [w] ∧
      (rxePostSend c [wr]).2.qp.sq.live = c.qp.sq.live ++ [w'] ∧
      w.taskView c.qp.type = w'.taskView c.qp.type
  rejected : (libPostSend (c.libQp ssn) c [wr]).1 = false →
    (libPostSend (c.libQp ssn) c [wr]).2.2.qp.sq.live = c.qp.sq.live ∧
      (rxePostSend c [wr]).2.qp.sq.live = c.qp.sq.live

/-- What a request must be that the library takes: the QP takes requests, its type allows the
opcode and the inline data; and the QP is not one that sends management datagrams, unless the
slot holds the address vector already and the P_Key index is 0. -/
def LibPostOk (c : Ctx) (wr : SendWr) : Prop :=
  c.takesRequests ∧ wr.allowed c.qp.type ∧
    (c.qp.type = .smi ∨ c.qp.type = .gsi → ∀ slot ∈ c.qp.sq.free.head?, slot.av = wr.ah) ∧
    (c.qp.type = .gsi → wr.pkeyIndex = 0)

theorem push_live_of_room {q : RingBuf SendWqe} (hroom : q.full = false) :
    ∃ slot, q.free.head? = some slot ∧
      ∀ f : SendWqe → SendWqe, (q.push f).live = q.live ++ [f slot] := by
  obtain ⟨slot, cells, hfree, -⟩ := RingBuf.free_of_room hroom
  exact ⟨slot, by rw [hfree]; rfl, fun f => by rw [RingBuf.push_live f hfree]⟩

/-- The library and the driver agree on a work request exactly if the library rejects it
itself, or it meets the tests that only the driver makes. -/
theorem posts_agree_iff (c : Ctx) (ssn : ℕ) (wr : SendWr) (hlib : wr.opcode.inLib) :
    PostsAgree c ssn wr ↔ (c.wellFormed wr ∧ c.qp.sq.full = false → LibPostOk c wr) := by
  rcases libPostSend_live c ssn wr with ⟨htake, hlib₁, hlib₂⟩ | ⟨hno, hlib₁, hlib₂⟩
  · obtain ⟨slot, hslot, hpush⟩ := push_live_of_room htake.2
    have hchanged : (libPostSend (c.libQp ssn) c [wr]).2.2.qp.sq.live ≠ c.qp.sq.live := by
      rw [hlib₂, hpush]
      exact fun h => absurd (congrArg List.length h) (by simp)
    rcases rxePostSend_live c wr with ⟨htakes, hker₁, hker₂⟩ | ⟨hrefused, hker₁, hker₂⟩
    · -- both take it: do they write the same?
      obtain ⟨hready, hallowed, -⟩ := htakes
      have hboth : (libPostSend (c.libQp ssn) c [wr]).1 = true :=
        hlib₁.trans (decide_eq_true hready)
      have hview := taskView_init_iff c.dev (wrOpcodeMask wr.opcode c.qp.type)
        (sgeTotal wr.sgList) (c.qp.ssn + 1) ssn slot hlib hallowed.1
      constructor
      · intro h _
        obtain ⟨w, w', hw, hw', heq⟩ := h.same hboth
        rw [hlib₂, hpush] at hw
        rw [hker₂, hpush] at hw'
        cases List.append_cancel_left hw
        cases List.append_cancel_left hw'
        obtain ⟨hav, hpkey⟩ := hview.1 heq
        refine ⟨hready, hallowed, fun htype s hs => ?_, hpkey⟩
        cases hslot.symm.trans hs
        exact hav htype
      · intro hok
        obtain ⟨-, -, hav, hpkey⟩ := hok htake
        refine ⟨hboth.trans hker₁.symm, fun _ => ?_, fun hrej => ?_⟩
        · refine ⟨_, _, (congrArg RingBuf.live hlib₂).trans (hpush _),
            (congrArg RingBuf.live hker₂).trans (hpush _), ?_⟩
          exact hview.2 ⟨fun htype => hav htype slot hslot, hpkey⟩
        · exact absurd (hboth.symm.trans hrej) (by decide)
    · -- only the library takes it
      refine iff_of_false (fun h => ?_) fun hok => ?_
      · have hrej := h.accepts.trans hker₁
        exact hchanged (h.rejected hrej).1
      · obtain ⟨hready, hallowed, -⟩ := hok htake
        exact hrefused ⟨hready, hallowed, htake⟩
  · -- the library rejects it, and so does the driver
    refine iff_of_true ?_ fun htake => absurd htake hno
    rcases rxePostSend_live c wr with ⟨htakes, -⟩ | ⟨-, hker₁, hker₂⟩
    · exact absurd htakes.2.2 hno
    · refine ⟨hlib₁.trans hker₁.symm, fun hacc => ?_, fun _ => ⟨hlib₂, ?_⟩⟩
      · exact absurd (hlib₁.symm.trans hacc) (by decide)
      · exact congrArg RingBuf.live hker₂

/-- A QP in RTS with room for two requests of one SGE each. -/
def twoSends (type : QpType) : Ctx :=
  let slot : SendWqe := { ibwr := { opcode := .send } }
  { qp := { type, sqMaxSge := 1, sq := ⟨[], [slot, slot, slot]⟩, rq := ⟨[], []⟩
            req := { state := .ready } } }

/-- An RDMA read of four bytes. -/
def readFour : SendWr :=
  { opcode := .rdmaRead, sgList := [{ addr := 16, length := 4, lkey := 1 }], remoteAddr := 64,
    rkey := 2 }

/-- On an RC QP the two agree on a read. -/
theorem posts_agree_read :
    PostsAgree (twoSends .rc) 0 readFour ∧ (rxePostSend (twoSends .rc) [readFour]).1 = true :=
  ⟨(posts_agree_iff (twoSends .rc) 0 readFour rfl).2 fun _ =>
    ⟨by decide, ⟨by decide, nofun⟩, by decide, nofun⟩, rfl⟩

/-- On a UC QP the library takes the same read, and the driver does not. -/
theorem posts_disagree : (libPostSend ((twoSends .uc).libQp 0) (twoSends .uc) [readFour]).1 = true ∧
    (libPostSend ((twoSends .uc).libQp 0) (twoSends .uc) [readFour]).2.2.qp.sq.live.length = 1 ∧
    (rxePostSend (twoSends .uc) [readFour]).1 = false :=
  ⟨rfl, rfl, rfl⟩

end Rxe
