/-
Creating QPs, CQs and memory regions (`rxe_verbs.c`, `rxe_qp.c`, `rxe_cq.c`, `rxe_mr.c`).

A verb takes references, an index and buffers one after the other, and most of it can fail.  The
functions here return the ledger of what was taken and given back; which allocations fail is a
parameter.  A verb that fails drops the last reference to the new element, so the cleanup
function of its pool runs after the error path of the verb (`rxeQpCleanup`).

* `creation_whole_iff` — when `rxe_create_qp` and `rxe_create_cq` are all or nothing;
* `registration_released_iff` — when a failing registration gives back what it took, once;
* `special_slots_iff` — the slots of the SMI and GSI QPs hold live QPs as long as no special QP
  is destroyed or fails to be created.
-/
import Rxe.Log
import Rxe.QpState
import Rxe.Recv

namespace Rxe

open Log

/-! ### Queues -/

/-- What a creation holds; the two CQs go by their role. -/
inductive Holding
  | index | pd | rcq | scq | srq | sqBuf | rqBuf | cqBuf
  deriving DecidableEq

/-- How the allocations for a queue end. -/
structure QueueOutcome where
  /-- `rxe_queue_init` returns a queue -/
  queue : Bool := true
  /-- `udata->outlen` is large enough -/
  room : Bool := true
  /-- `rxe_create_mmap_info` returns an entry -/
  info : Bool := true
  /-- `copy_to_user` succeeds -/
  copy : Bool := true

/-- `do_mmap_info`: `true` where it returns 0. -/
def QueueOutcome.doMmapInfo (o : QueueOutcome) (user : Bool) : Bool :=
  !user || (o.room && o.info && o.copy)

/-- The queue of a new object: whether the pointer to it is set, and the ledger.  Where
`do_mmap_info` fails the buffer is freed, but the caller goes on. -/
def initQueue (buf : Holding) (user : Bool) (o : QueueOutcome) : Bool × List (Entry Holding) :=
  if o.queue then (true, .take buf :: if o.doMmapInfo user then [] else [.give buf])
  else (false, [])

/-- The queue is allocated and known to the user. -/
def QueueOutcome.usable (o : QueueOutcome) (user : Bool) : Bool := o.queue && o.doMmapInfo user

theorem initQueue_cases (buf : Holding) (user : Bool) (o : QueueOutcome) :
    o.usable user ∧ initQueue buf user o = (true, [.take buf]) ∨
      o.usable user = false ∧ o.queue ∧ initQueue buf user o = (true, [.take buf, .give buf]) ∨
      o.usable user = false ∧ o.queue = false ∧ initQueue buf user o = (false, []) := by
  unfold initQueue QueueOutcome.usable
  cases o.queue <;> cases o.doMmapInfo user <;> simp

/-! ### Creating a QP -/

/-- `struct ib_qp_init_attr`; `user` says whether there is `udata`. -/
structure QpInitAttr where
  type : QpType
  portNum : ℕ := 1
  recvCq : Bool := true
  sendCq : Bool := true
  srq : Bool := false
  cap : QpCap := {}
  user : Bool := false

/-- How the allocations for a QP end; `elem` is that of `rxe_alloc`. -/
structure QpOutcome where
  elem : Bool := true
  sq : QueueOutcome := {}
  rq : QueueOutcome := {}

/-- The slot of the port for QPs of a type. -/
def RcvDev.slot (rxe : RcvDev) : QpType → Option ℕ
  | .smi => some rxe.qpSmiIndex
  | .gsi => some rxe.qpGsiIndex
  | _ => none

/-- `rxe_qp_chk_init`: `true` where it returns 0.  The device has one port. -/
def rxeQpChkInit (lim : DevLimits) (rxe : RcvDev) (init : QpInitAttr) : Bool :=
  init.recvCq && init.sendCq && rxeQpChkCap lim init.cap init.srq &&
    match rxe.slot init.type with
    | some index => init.portNum = 1 && index = 0
    | none => true

/-- `rxe_qp_init_misc`: what it does to the port. -/
def rxeQpInitMisc (rxe : RcvDev) (type : QpType) (i : ℕ) : RcvDev :=
  match type with
  | .smi => { rxe with qpSmiIndex := i }
  | .gsi => { rxe with qpGsiIndex := i }
  | _ => rxe

/-- `rxe_qp_init_req` -/
def rxeQpInitReq (init : QpInitAttr) (o : QpOutcome) : Bool × List (Entry Holding) :=
  initQueue .sqBuf init.user o.sq

/-- `rxe_qp_init_resp`: without error, with a receive queue, and the ledger. -/
def rxeQpInitResp (init : QpInitAttr) (o : QpOutcome) : Bool × Bool × List (Entry Holding) :=
  if init.srq then (true, false, [])
  else
    let (rq, log) := initQueue .rqBuf init.user o.rq
    (rq, rq, log)

/-- The references `rxe_qp_from_init` takes. -/
def QpInitAttr.refs (init : QpInitAttr) : List Holding :=
  [.pd, .rcq, .scq] ++ if init.srq then [.srq] else []

/-- `rxe_qp_from_init`: without error, the pointers to the queues, and the ledger. -/
def rxeQpFromInit (init : QpInitAttr) (o : QpOutcome) :
    Bool × (Bool × Bool) × List (Entry Holding) :=
  let taken := init.refs.map .take
  let dropped := init.refs.reverse.map .give
  let (sq, sqLog) := rxeQpInitReq init o
  if !sq then (false, (false, false), taken ++ sqLog ++ dropped)
  else
    let (ok, rq, rqLog) := rxeQpInitResp init o
    if ok then (true, (true, rq), taken ++ sqLog ++ rqLog)
    -- `rxe_queue_cleanup`; the pointer stays
    else (false, (true, rq), taken ++ sqLog ++ rqLog ++ [.give .sqBuf] ++ dropped)

/-- `rxe_qp_cleanup` -/
def rxeQpCleanup (init : QpInitAttr) (queues : Bool × Bool) : List (Entry Holding) :=
  (if queues.1 then [.give .sqBuf] else []) ++ (if init.srq then [.give .srq] else []) ++
    (if queues.2 then [.give .rqBuf] else []) ++ [.give .scq, .give .rcq, .give .pd]

/-- `rxe_create_qp` with the index `i`: whether it succeeds, the device and the ledger. -/
def rxeCreateQp (lim : DevLimits) (rxe : RcvDev) (init : QpInitAttr) (i : ℕ) (o : QpOutcome) :
    Bool × RcvDev × List (Entry Holding) :=
  if rxeQpChkInit lim rxe init && o.elem then
    let rxe := rxeQpInitMisc rxe init.type i
    let (ok, queues, log) := rxeQpFromInit init o
    if ok then
      let qp : RcvQp := { type := init.type, reqState := .reset, respState := .reset }
      (true, { rxe with qp := Function.update rxe.qp i (some qp) }, .take .index :: log)
    else (false, rxe, .take .index :: log ++ .give .index :: rxeQpCleanup init queues)
  else (false, rxe, [])

/-- `rxe_create_cq`; a CQ without a queue has nothing to clean up. -/
def rxeCreateCq (maxCqe cqe : ℤ) (user elem : Bool) (o : QueueOutcome) :
    Bool × List (Entry Holding) :=
  if 0 < cqe && cqe ≤ maxCqe && elem then initQueue .cqBuf user o else (false, [])

/-- The buffers of an object that was created are allocated; of one that was not, nothing is left
and nothing was given back twice. -/
def AllOrNothing (bufs : List Holding) (ok : Bool) (log : List (Entry Holding)) : Prop :=
  if ok then ∀ b ∈ bufs, balance b log = 1 else ∀ h, balance h log = 0

/-- A QP is created whole or not at all, and the port then keeps its slots. -/
def QpWhole (rxe : RcvDev) (init : QpInitAttr) (r : Bool × RcvDev × List (Entry Holding)) : Prop :=
  AllOrNothing (if init.srq then [.sqBuf] else [.sqBuf, .rqBuf]) r.1 r.2.2 ∧
    (r.1 = false → r.2.1.slot = rxe.slot)

/-- The allocations for the queues succeed. -/
def QpOutcome.usable (o : QpOutcome) (init : QpInitAttr) : Bool :=
  o.sq.usable init.user && (init.srq || o.rq.usable init.user)

theorem qpWhole_iff (lim : DevLimits) (rxe : RcvDev) (init : QpInitAttr) (i : ℕ) (o : QpOutcome)
    (hchk : rxeQpChkInit lim rxe init) (helem : o.elem) :
    QpWhole rxe init (rxeCreateQp lim rxe init i o) ↔ o.usable init := by
  unfold rxeCreateQp QpWhole AllOrNothing rxeQpFromInit rxeQpInitReq rxeQpInitResp rxeQpCleanup
    QpInitAttr.refs QpOutcome.usable
  rw [hchk, helem]
  rcases initQueue_cases .sqBuf init.user o.sq with ⟨hs, heq⟩ | ⟨hs, -, heq⟩ | ⟨hs, -, heq⟩ <;>
    rw [hs, heq] <;> cases init.srq <;>
    rcases initQueue_cases .rqBuf init.user o.rq with ⟨hr, heq'⟩ | ⟨hr, -, heq'⟩ | ⟨hr, -, heq'⟩ <;>
    simp [hr, heq']
  -- where a queue is missing, the reference to the PD is dropped twice
  all_goals exact fun hall => absurd (hall .pd) (by decide)

/-- A creation is all or nothing exactly if it is refused at once, or all its queues are allocated
and known to the user; a CQ may also fail for want of a queue. -/
theorem creation_whole_iff (lim : DevLimits) (rxe : RcvDev) (init : QpInitAttr) (i : ℕ)
    (o : QpOutcome) (maxCqe cqe : ℤ) (user elem : Bool) (q : QueueOutcome) :
    (QpWhole rxe init (rxeCreateQp lim rxe init i o) ↔
        (rxeQpChkInit lim rxe init ∧ o.elem → o.usable init)) ∧
      (AllOrNothing [.cqBuf] (rxeCreateCq maxCqe cqe user elem q).1
          (rxeCreateCq maxCqe cqe user elem q).2 ↔
        (0 < cqe ∧ cqe ≤ maxCqe ∧ elem ∧ q.queue → q.doMmapInfo user)) := by
  constructor
  · by_cases h : rxeQpChkInit lim rxe init ∧ o.elem
    · rw [qpWhole_iff lim rxe init i o h.1 h.2]
      exact ⟨fun husable _ => husable, fun hall => hall h⟩
    · have hnone : rxeCreateQp lim rxe init i o = (false, rxe, []) := by
        unfold rxeCreateQp
        rw [if_neg (by simpa using h)]
      rw [hnone]
      exact iff_of_true ⟨fun _ => rfl, fun _ => rfl⟩ fun hyes => absurd hyes h
  · by_cases h : 0 < cqe ∧ cqe ≤ maxCqe ∧ elem
    · obtain ⟨hpos, hle, rfl⟩ := h
      unfold rxeCreateCq AllOrNothing initQueue
      cases q.queue <;> cases q.doMmapInfo user <;> simp [hpos, hle]
    · have hnone : rxeCreateCq maxCqe cqe user elem q = (false, []) :=
        if_neg (by simpa [and_assoc] using h)
      rw [hnone]
      exact iff_of_true (fun _ => rfl) fun hyes => absurd ⟨hyes.1, hyes.2.1, hyes.2.2.1⟩ h

/-- The receive queue cannot be allocated: the PD, the CQs and the send queue are given back
twice. -/
theorem creation_dropped_twice :
    ¬ QpWhole { qp := fun _ => none } { type := .rc }
      (rxeCreateQp {} { qp := fun _ => none } { type := .rc } 16 { rq := { queue := false } }) := by
  rintro ⟨hall, -⟩
  exact absurd (hall .pd) (by decide)

/-! ### Registering memory -/

/-- What a registration holds. -/
inductive RegHolding
  | index | pd | umem | array
  | block (i : ℕ)
  deriving DecidableEq

/-- How the allocations for a region end; `elem` is that of `rxe_alloc`, `pin` that of
`ib_umem_get`. -/
structure RegOutcome where
  elem : Bool := true
  pin : Bool := true
  array : Bool := true
  block : ℕ → Bool := fun _ => true

/-- What `rxe_mem_cleanup` reads. -/
structure MemPtrs where
  umem : Bool := false
  map : Bool := false
  numMap : ℕ := 0

def numMaps (numBuf : ℕ) : ℕ := (numBuf + bufPerMap - 1) / bufPerMap

/-- The map blocks for so many buffers can all be allocated. -/
def RegOutcome.blocks (o : RegOutcome) (numBuf : ℕ) : Bool :=
  (List.range (numMaps numBuf)).all o.block

/-- `rxe_mem_alloc` on a region without `umem`: without error, the pointers and the ledger. -/
def rxeMemAlloc (o : RegOutcome) (numBuf : ℕ) : Bool × MemPtrs × List (Entry RegHolding) :=
  let maps := List.range (numMaps numBuf)
  if !o.array then (false, {}, [])
  else if o.blocks numBuf then
    (true, { map := true, numMap := numMaps numBuf },
      .take .array :: (maps.map RegHolding.block).map .take)
  else
    -- all of it is freed, but the pointer to the array stays
    let got := (maps.takeWhile o.block).map RegHolding.block
    (false, { map := true },
      .take .array :: got.map .take ++ got.reverse.map .give ++ [.give .array])

/-- `rxe_mem_init_fmr` -/
def rxeMemInitFmr (o : RegOutcome) (maxMapPerFmr maxMaps maxPages : ℕ) :
    Bool × MemPtrs × List (Entry RegHolding) :=
  if maxMapPerFmr < maxMaps then (false, {}, []) else rxeMemAlloc o maxPages

/-- `rxe_mem_init_user`; `pages` says which of the pinned pages have an address.  `rxe_mem_init`
clears the pointer to the pinned memory, and only the last lines set it again. -/
def rxeMemInitUser (o : RegOutcome) (length : ℕ) (pages : List Bool) :
    Bool × MemPtrs × List (Entry RegHolding) :=
  if o.pin then
    let (ok, ptrs, log) := rxeMemAlloc o pages.length
    let ok := ok && (length = 0 || pages.all id)
    (ok, { ptrs with umem := ok }, .take .umem :: log)
  else (false, {}, [])

/-- `rxe_mem_cleanup` -/
def rxeMemCleanup (p : MemPtrs) : List (Entry RegHolding) :=
  (if p.umem then [.give .umem] else []) ++
    if p.map then ((List.range p.numMap).map RegHolding.block).map .give ++ [.give .array] else []

/-- The calls that register memory; `rxe_mem_init_phys` and `rxe_mem_init_fast` can only fail in
`rxe_mem_alloc`. -/
inductive RegVerb
  | phys (numBuf : ℕ)
  | user (length : ℕ) (pages : List Bool)
  | fast (maxPages : ℕ)
  | fmr (maxMaps maxPages : ℕ)

def RegVerb.init (maxMapPerFmr : ℕ) (o : RegOutcome) :
    RegVerb → Bool × MemPtrs × List (Entry RegHolding)
  | .phys n | .fast n => rxeMemAlloc o n
  | .user length pages => rxeMemInitUser o length pages
  | .fmr maxMaps maxPages => rxeMemInitFmr o maxMapPerFmr maxMaps maxPages

/-- `rxe_reg_phys_mr`, `rxe_reg_user_mr`, `rxe_alloc_fast_reg_mr` and `rxe_alloc_fmr` -/
def RegVerb.run (maxMapPerFmr : ℕ) (o : RegOutcome) (v : RegVerb) :
    Bool × List (Entry RegHolding) :=
  if o.elem then
    let (ok, ptrs, log) := v.init maxMapPerFmr o
    let log := .take .index :: .take .pd :: log
    if ok then (true, log) else (false, log ++ .give .pd :: .give .index :: rxeMemCleanup ptrs)
  else (false, [])

/-- Nothing fails behind what the error path forgets or frees itself. -/
def RegVerb.Safe (maxMapPerFmr : ℕ) (o : RegOutcome) : RegVerb → Prop
  | .phys n | .fast n => o.array → o.blocks n
  | .user length pages =>
    o.pin → o.array ∧ o.blocks pages.length ∧ (0 < length → ∀ p ∈ pages, p)
  | .fmr maxMaps maxPages => maxMaps ≤ maxMapPerFmr → o.array → o.blocks maxPages

/-- A failing init function leaves nothing to the cleanup that is not given back by it. -/
def Cleans (r : Bool × MemPtrs × List (Entry RegHolding)) : Prop :=
  r.1 = false → ∀ h, balance h r.2.2 + balance h (rxeMemCleanup r.2.1) = 0

section Register

variable (o : RegOutcome) (n : ℕ)

theorem rxeMemAlloc_ok : (rxeMemAlloc o n).1 = (o.array && o.blocks n) := by
  unfold rxeMemAlloc
  cases o.array <;> cases o.blocks n <;> rfl

theorem rxeMemAlloc_umem (u : Bool) (h : u = false) :
    { (rxeMemAlloc o n).2.1 with umem := u } = (rxeMemAlloc o n).2.1 := by
  subst h
  unfold rxeMemAlloc
  cases o.array <;> cases o.blocks n <;> rfl

/-- Of an allocation and the cleanup after it nothing is left; where a block is missing the array
is freed twice. -/
theorem rxeMemAlloc_balance (h : RegHolding) :
    balance h (rxeMemAlloc o n).2.2 + balance h (rxeMemCleanup (rxeMemAlloc o n).2.1) =
      if h = .array ∧ o.array ∧ o.blocks n = false then -1 else 0 := by
  unfold rxeMemAlloc rxeMemCleanup
  generalize (List.range (numMaps n)).takeWhile o.block = got
  generalize got.map RegHolding.block = got
  cases h <;> cases o.array <;> cases o.blocks n <;> simp [-List.map_reverse, -List.map_map]

theorem run_released {v : RegVerb} {m : ℕ} (helem : o.elem) :
    ((v.run m o).1 = false → ∀ h, balance h (v.run m o).2 = 0) ↔
      Cleans (v.init m o) := by
  unfold RegVerb.run Cleans
  rw [if_pos helem]
  generalize v.init m o = r
  obtain ⟨_ | _, ptrs, log⟩ := r
  · refine forall_congr' fun _ => forall_congr' fun h => ?_
    cases h <;> simp <;> omega
  · simp

theorem cleans_alloc : Cleans (rxeMemAlloc o n) ↔ (o.array → o.blocks n) := by
  simp only [Cleans, rxeMemAlloc_balance, rxeMemAlloc_ok]
  cases o.array <;> cases o.blocks n <;> simp

theorem cleans_fmr (m maxMaps : ℕ) :
    Cleans (rxeMemInitFmr o m maxMaps n) ↔ (maxMaps ≤ m → o.array → o.blocks n) := by
  unfold rxeMemInitFmr
  split
  · next hlt => exact iff_of_true (fun _ _ => rfl) fun hle => absurd hle (Nat.not_le.2 hlt)
  · next hle => simp only [Nat.not_lt.1 hle, true_implies, cleans_alloc]

theorem cleans_user (pages : List Bool) : Cleans (rxeMemInitUser o n pages) ↔
    (o.pin → o.array ∧ o.blocks pages.length ∧ (0 < n → ∀ p ∈ pages, p)) := by
  unfold rxeMemInitUser
  split
  · next hpin =>
    have hall : ((rxeMemAlloc o pages.length).1 && (n = 0 || pages.all id)) = true ↔
        o.array ∧ o.blocks pages.length ∧ (0 < n → ∀ p ∈ pages, p) := by
      rw [rxeMemAlloc_ok]
      simp [Nat.pos_iff_ne_zero, and_assoc, or_iff_not_imp_left]
    simp only [hpin, true_implies, ← hall]
    refine ⟨fun h => ?_, fun h hno => nomatch h.symm.trans hno⟩
    by_contra hfail
    rw [Bool.not_eq_true] at hfail
    -- a failing call forgets the pinned pages
    have humem := h hfail .umem
    rw [rxeMemAlloc_umem o _ _ hfail, balance_take, Int.add_assoc, rxeMemAlloc_balance] at humem
    simp at humem
  · next hpin => exact iff_of_true (fun _ _ => rfl) fun h => absurd h hpin

/-- A failing registration leaves nothing behind and gives nothing back twice exactly if no map
block is missing and, once user memory is pinned, nothing fails. -/
theorem registration_released_iff (maxMapPerFmr : ℕ) (o : RegOutcome) (v : RegVerb) :
    ((v.run maxMapPerFmr o).1 = false → ∀ h, balance h (v.run maxMapPerFmr o).2 = 0) ↔
      (o.elem → v.Safe maxMapPerFmr o) := by
  by_cases helem : o.elem
  · rw [run_released o helem]
    simp only [helem, true_implies]
    cases v with
    | phys n | fast n => exact cleans_alloc o n
    | user length pages => exact cleans_user o length pages
    | fmr maxMaps maxPages => exact cleans_fmr o maxPages maxMapPerFmr maxMaps
  · have hnone : v.run maxMapPerFmr o = (false, []) := if_neg helem
    rw [hnone]
    exact iff_of_true (fun _ _ => rfl) fun h => absurd h helem

/-- The second of two map blocks is missing: the array is freed twice. -/
theorem registration_frees_twice :
    ¬ (((RegVerb.phys 300).run 100 { block := fun i => i = 0 }).1 = false →
      ∀ h, balance h ((RegVerb.phys 300).run 100 { block := fun i => i = 0 }).2 = 0) :=
  fun h => absurd (h rfl .array) (by decide)

end Register

/-! ### The slots of the special QPs -/

/-- What happens to the QPs of a device. -/
inductive SlotAct
  | create (init : QpInitAttr) (i : ℕ) (o : QpOutcome)
  | destroy (i : ℕ)
  /-- a verb or a task changes the QP -/
  | modify (i : ℕ) (qp : RcvQp)

/-- A creation with a free index, `rxe_destroy_qp`, or any change of a QP that keeps its type;
`RXE_MIN_QP_INDEX` is 16. -/
def slotStep (lim : DevLimits) (rxe : RcvDev) : SlotAct → Option RcvDev
  | .create init i o =>
    if 16 ≤ i ∧ (rxe.qp i).isNone then some (rxeCreateQp lim rxe init i o).2.1 else none
  | .destroy i =>
    if (rxe.qp i).isSome then some { rxe with qp := Function.update rxe.qp i none } else none
  | .modify i qp =>
    if (rxe.qp i).any (·.type = qp.type) then
      some { rxe with qp := Function.update rxe.qp i (some qp) }
    else none

/-- A slot is free or has the index of a live QP of its type. -/
def RcvDev.Held (rxe : RcvDev) : Prop :=
  ∀ t k, rxe.slot t = some k → k = 0 ∨ ∃ q, rxe.qp k = some q ∧ q.type = t

/-- What the slots are for. -/
structure SpecialOk (rxe : RcvDev) : Prop where
  held : rxe.Held
  /-- packets to QP number 0 and 1 go to the SMI and the GSI QP -/
  deliver : ∀ pkt i, pkt.bthQpn < 2 → hdrCheck rxe pkt = some i →
    ∃ q, rxe.qp i = some q ∧ q.type = if pkt.bthQpn = 0 then .smi else .gsi
  /-- without a QP of the type, one can be created -/
  free : ∀ t k, rxe.slot t = some k → (∀ i q, rxe.qp i = some q → q.type ≠ t) → k = 0

/-- There is memory for the queues. -/
def QpOutcome.made (o : QpOutcome) (init : QpInitAttr) : Bool :=
  o.sq.queue && (init.srq || o.rq.queue)

/-- No special QP is destroyed, and none whose attributes are accepted lacks memory for its
queues. -/
def SlotOk (lim : DevLimits) (rxe : RcvDev) : SlotAct → Prop
  | .create init _ o =>
    (rxe.slot init.type).isSome → rxeQpChkInit lim rxe init ∧ o.elem → o.made init
  | .destroy i => ∀ q ∈ rxe.qp i, rxe.slot q.type = none
  | .modify _ _ => True

/-- What holds of the slots in any case: no QP has index 0, and a live special QP is the one in
the slot. -/
structure SlotInv (rxe : RcvDev) : Prop where
  zero : rxe.qp 0 = none
  owner : ∀ i q k, rxe.qp i = some q → rxe.slot q.type = some k → k = i

section Slots

variable {lim : DevLimits} {rxe rxe' : RcvDev} {init : QpInitAttr} {i : ℕ} {o : QpOutcome}

theorem slot_initMisc (rxe : RcvDev) (type t : QpType) (i : ℕ) :
    (rxeQpInitMisc rxe type i).slot t =
      if t = type then (rxe.slot t).map fun _ => i else rxe.slot t := by
  cases type <;> cases t <;> rfl

theorem qp_initMisc (rxe : RcvDev) (type : QpType) (i : ℕ) :
    (rxeQpInitMisc rxe type i).qp = rxe.qp := by
  cases type <;> rfl

theorem rxeQpFromInit_ok (init : QpInitAttr) (o : QpOutcome) :
    (rxeQpFromInit init o).1 = o.made init := by
  unfold rxeQpFromInit rxeQpInitReq rxeQpInitResp initQueue QpOutcome.made
  cases o.sq.queue <;> cases init.srq <;> cases o.rq.queue <;> rfl

theorem rxeCreateQp_cases (lim : DevLimits) (rxe : RcvDev) (init : QpInitAttr) (i : ℕ)
    (o : QpOutcome) :
    ¬ (rxeQpChkInit lim rxe init ∧ o.elem) ∧ (rxeCreateQp lim rxe init i o).2.1 = rxe ∨
      (rxeQpChkInit lim rxe init ∧ o.elem) ∧
        (o.made init = false ∧ (rxeCreateQp lim rxe init i o).2.1 = rxeQpInitMisc rxe init.type i ∨
          o.made init ∧ ∃ q : RcvQp, q.type = init.type ∧ (rxeCreateQp lim rxe init i o).2.1 =
            { rxeQpInitMisc rxe init.type i with qp := Function.update rxe.qp i (some q) }) := by
  unfold rxeCreateQp
  by_cases h : rxeQpChkInit lim rxe init ∧ o.elem
  · rw [if_pos (by simpa using h), ← rxeQpFromInit_ok]
    refine Or.inr ⟨h, ?_⟩
    generalize rxeQpFromInit init o = r
    obtain ⟨_ | _, queues, log⟩ := r
    · exact Or.inl ⟨rfl, rfl⟩
    · exact Or.inr ⟨rfl, _, rfl, by rw [← qp_initMisc rxe init.type i]; rfl⟩
  · rw [if_neg (by simpa using h)]
    exact Or.inl ⟨h, rfl⟩

theorem slot_of_chkInit (h : rxeQpChkInit lim rxe init) {k : ℕ} (hk : rxe.slot init.type = some k) :
    k = 0 := by
  unfold rxeQpChkInit at h
  rw [hk] at h
  simp only [Bool.and_eq_true, decide_eq_true_eq] at h
  exact h.2.2

theorem SlotInv.owner_initMisc (h : SlotInv rxe) (hchk : rxeQpChkInit lim rxe init) {j k : ℕ}
    {q : RcvQp} (hq : rxe.qp j = some q)
    (hk : (rxeQpInitMisc rxe init.type i).slot q.type = some k) : k = j := by
  rw [slot_initMisc] at hk
  split at hk
  · next htype =>
    obtain ⟨k', hk', -⟩ := Option.map_eq_some_iff.1 hk
    have hzero := slot_of_chkInit hchk (htype ▸ hk')
    rw [← h.owner j q k' hq hk', hzero, h.zero] at hq
    cases hq
  · exact h.owner j q k hq hk

theorem slotStep_create (h : slotStep lim rxe (.create init i o) = some rxe') :
    16 ≤ i ∧ rxe.qp i = none ∧ rxe' = (rxeCreateQp lim rxe init i o).2.1 := by
  obtain ⟨⟨hle, hfree⟩, hstep⟩ := Option.ite_none_right_eq_some.1 h
  exact ⟨hle, Option.isNone_iff_eq_none.1 hfree, (Option.some.inj hstep).symm⟩

theorem slotStep_destroy (h : slotStep lim rxe (.destroy i) = some rxe') :
    ∃ q, rxe.qp i = some q ∧ rxe' = { rxe with qp := Function.update rxe.qp i none } := by
  obtain ⟨hlive, hstep⟩ := Option.ite_none_right_eq_some.1 h
  obtain ⟨q, hq⟩ := Option.isSome_iff_exists.1 hlive
  exact ⟨q, hq, (Option.some.inj hstep).symm⟩

theorem slotStep_modify {qp : RcvQp} (h : slotStep lim rxe (.modify i qp) = some rxe') :
    rxe'.slot = rxe.slot ∧ ∀ j t, (∃ q, rxe'.qp j = some q ∧ q.type = t) ↔
      ∃ q, rxe.qp j = some q ∧ q.type = t := by
  obtain ⟨hany, hstep⟩ := Option.ite_none_right_eq_some.1 h
  obtain ⟨r, hr, htype⟩ := (Option.any_eq_true _ _).1 hany
  cases hstep
  refine ⟨rfl, fun j t => ?_⟩
  by_cases hj : j = i
  · subst hj
    simp [hr, of_decide_eq_true htype]
  · simp [Function.update_of_ne hj]

theorem SlotInv.step (h : SlotInv rxe) {a : SlotAct} (hstep : slotStep lim rxe a = some rxe') :
    SlotInv rxe' := by
  cases a with
  | create init i o =>
    obtain ⟨hle, -, rfl⟩ := slotStep_create hstep
    rcases rxeCreateQp_cases lim rxe init i o with ⟨-, heq⟩ | ⟨hchk, ⟨-, heq⟩ | ⟨-, q, hq, heq⟩⟩ <;>
      rw [heq]
    · exact h
    · exact ⟨by rw [qp_initMisc]; exact h.zero, fun j r k hr =>
        h.owner_initMisc hchk.1 (by rwa [qp_initMisc] at hr)⟩
    · refine ⟨(Function.update_of_ne (by omega) _ _).trans h.zero, fun j r k hr hk => ?_⟩
      by_cases hj : j = i
      · subst hj
        cases (Function.update_self j _ rxe.qp).symm.trans hr
        -- the new QP is the one its slot names, since its type set the slot
        have hslot : (rxeQpInitMisc rxe init.type j).slot init.type = some k := hq ▸ hk
        rw [slot_initMisc, if_pos rfl] at hslot
        obtain ⟨-, -, rfl⟩ := Option.map_eq_some_iff.1 hslot
        rfl
      · exact h.owner_initMisc hchk.1 ((Function.update_of_ne hj _ _).symm.trans hr) hk
  | destroy i =>
    obtain ⟨q, -, rfl⟩ := slotStep_destroy hstep
    have hold : ∀ j r, Function.update rxe.qp i none j = some r → rxe.qp j = some r := by
      intro j r hr
      by_cases hj : j = i
      · subst hj
        cases (Function.update_self j none rxe.qp).symm.trans hr
      · exact (Function.update_of_ne hj _ _).symm.trans hr
    refine ⟨?_, fun j r k hr hk => h.owner j r k (hold j r hr) hk⟩
    by_contra hne
    obtain ⟨r, hr⟩ := Option.ne_none_iff_exists'.1 hne
    cases h.zero.symm.trans (hold 0 r hr)
  | modify i qp =>
    obtain ⟨hslot, hsame⟩ := slotStep_modify hstep
    refine ⟨?_, fun j r k hr hk => ?_⟩
    · by_contra hne
      obtain ⟨r, hr⟩ := Option.ne_none_iff_exists'.1 hne
      obtain ⟨q, hq, -⟩ := (hsame 0 _).1 ⟨r, hr, rfl⟩
      cases h.zero.symm.trans hq
    · obtain ⟨q, hq, htype⟩ := (hsame j _).1 ⟨r, hr, rfl⟩
      exact h.owner j q k hq (by rwa [htype, ← hslot])

theorem held_step_iff (h : SlotInv rxe) (hheld : rxe.Held) {a : SlotAct}
    (hstep : slotStep lim rxe a = some rxe') : rxe'.Held ↔ SlotOk lim rxe a := by
  cases a with
  | create init i o =>
    obtain ⟨hle, hfree, rfl⟩ := slotStep_create hstep
    rcases rxeCreateQp_cases lim rxe init i o with
      ⟨hno, heq⟩ | ⟨hchk, ⟨hmade, heq⟩ | ⟨hmade, q, hq, heq⟩⟩
    · rw [heq]
      exact iff_of_true hheld fun _ hyes => absurd hyes hno
    · -- the slot is set and nothing is created
      rw [heq]
      constructor
      · intro hnew hspecial
        obtain ⟨k, hk⟩ := Option.isSome_iff_exists.1 hspecial
        have hslot : (rxeQpInitMisc rxe init.type i).slot init.type = some i := by
          rw [slot_initMisc, if_pos rfl, hk]
          rfl
        rcases hnew _ _ hslot with hzero | ⟨q, hq, -⟩
        · omega
        · rw [qp_initMisc, hfree] at hq
          cases hq
      · intro hok t k hk
        rw [slot_initMisc] at hk
        rw [qp_initMisc]
        split at hk
        · next htype =>
          obtain ⟨k', hk', -⟩ := Option.map_eq_some_iff.1 hk
          have hsome : (rxe.slot init.type).isSome := by rw [← htype, hk']; rfl
          cases hmade.symm.trans (hok hsome hchk)
        · exact hheld t k hk
    · rw [heq]
      refine iff_of_true (fun t k hk => ?_) fun _ _ => hmade
      have hslot : (rxeQpInitMisc rxe init.type i).slot t = some k := hk
      rw [slot_initMisc] at hslot
      split at hslot
      · next htype =>
        obtain ⟨-, -, rfl⟩ := Option.map_eq_some_iff.1 hslot
        exact Or.inr ⟨q, Function.update_self .., hq.trans htype.symm⟩
      · refine (hheld t k hslot).imp_right ?_
        rintro ⟨q', hq', htype⟩
        refine ⟨q', (Function.update_of_ne ?_ _ _).trans hq', htype⟩
        rintro rfl
        cases hfree.symm.trans hq'
  | destroy i =>
    obtain ⟨q, hq, rfl⟩ := slotStep_destroy hstep
    constructor
    · intro hnew r hr
      -- a special QP that goes leaves its slot pointing at nothing
      by_contra hne
      obtain ⟨k, hk⟩ := Option.ne_none_iff_exists'.1 hne
      obtain rfl := h.owner i r k hr hk
      rcases hnew _ _ hk with rfl | ⟨q', hq', -⟩
      · cases h.zero.symm.trans hr
      · cases (Function.update_self k none rxe.qp).symm.trans hq'
    · intro hok t k hk
      refine (hheld t k hk).imp_right ?_
      rintro ⟨q', hq', rfl⟩
      refine ⟨q', (Function.update_of_ne ?_ _ _).trans hq', rfl⟩
      rintro rfl
      cases (hok q' hq').symm.trans hk
  | modify i qp =>
    obtain ⟨hslot, hsame⟩ := slotStep_modify hstep
    exact iff_of_true (fun t k hk => (hheld t k (hslot ▸ hk)).imp_right (hsame k t).2) trivial

theorem SlotInv.special_iff (h : SlotInv rxe) : SpecialOk rxe ↔ rxe.Held := by
  refine ⟨fun hspecial => hspecial.held, fun hheld => ⟨hheld, fun pkt i hqpn hi => ?_, ?_⟩⟩
  · obtain ⟨-, hi⟩ := Option.ite_none_left_eq_some.1 hi
    split at hi
    · cases hi
    · next qp hqp =>
      obtain ⟨-, ⟨⟩⟩ := Option.ite_none_right_eq_some.1 hi
      refine ⟨qp, hqp, ?_⟩
      -- index 0 is never a QP, so the slot names a live QP of its own type
      have hfound : ∀ {t k}, rxe.slot t = some k → rxe.qp k = some qp → qp.type = t := by
        intro t k hk hget
        rcases hheld t k hk with rfl | ⟨q, hq, htype⟩
        · cases h.zero.symm.trans hget
        · cases hget.symm.trans hq
          exact htype
      by_cases hzero : pkt.bthQpn = 0
      · rw [if_pos hzero] at hqp ⊢
        exact hfound rfl hqp
      · rw [if_neg hzero, if_pos (by omega)] at hqp
        rw [if_neg hzero]
        exact hfound rfl hqp
  · intro t k hk hnone
    rcases hheld t k hk with hzero | ⟨q, hq, htype⟩
    · exact hzero
    · exact absurd htype (hnone k q hq)

end Slots

open Trace in
/-- The slots are right at all times exactly in the runs in which no special QP is destroyed and
none fails to be created for want of memory. -/
theorem special_slots_iff (lim : DevLimits) (run : Run (slotStep lim))
    (hqp : ∀ i, (run.state 0).qp i = none) (hslot : ∀ t k, (run.state 0).slot t = some k → k = 0) :
    (∀ t, SpecialOk (run.state t)) ↔ ∀ t a, run.act t = some a → SlotOk lim (run.state t) a := by
  have hinv : ∀ t, SlotInv (run.state t) :=
    run.inv ⟨hqp 0, fun i q k hq => by rw [hqp] at hq; cases hq⟩ fun _ _ _ h hstep => h.step hstep
  simp only [fun t => (hinv t).special_iff]
  exact run.always_iff (Q := RcvDev.Held) (fun t k hk => Or.inl (hslot t k hk))
    fun t a hact hheld =>
    held_step_iff (hinv t) hheld (run.taken t a hact)

/-- An SMI QP is created. -/
theorem special_slots_smi : SpecialOk ((Trace.Run.ofActs (slotStep {})
    { qp := fun _ => none, qpGsiIndex := 0 } [.create { type := .smi } 16 {}]).state 1) := by
  refine (special_slots_iff {} _ (fun _ => rfl) (fun t k hk => ?_)).2 (fun t a hact => ?_) 1
  · cases t <;> cases hk <;> rfl
  · obtain ⟨ha, -⟩ := Option.filter_eq_some_iff.1 hact
    obtain rfl := List.mem_singleton.1 (List.mem_of_getElem? ha)
    exact fun _ _ => rfl

/-- The SMI QP is destroyed: the slot keeps its index. -/
theorem special_slot_stale : ¬ ∀ t, SpecialOk ((Trace.Run.ofActs (slotStep {})
    { qp := fun _ => none, qpGsiIndex := 0 }
    [.create { type := .smi } 16 {}, .destroy 16]).state t) := by
  intro h
  rcases (h 2).held .smi 16 rfl with hzero | ⟨q, hq, -⟩
  · cases hzero
  · cases hq

end Rxe
