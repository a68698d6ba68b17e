/-
Modifying a shared receive queue (`rxe_srq.c`, `rxe_modify_srq`).

The queue is resized before the limit is set.  If the resize fails, it has left the queue alone,
but `rxe_srq_from_attr` then cleans up the queue of the SRQ and forgets it.

* `rxeModifySrq` — the verb; `none` if it follows a null pointer or writes outside of a buffer;
* `resize_error` — when a resize fails;
* `modify_srq_iff` — when a failed request is harmless;
* `modify_srq_loses_queue` — a request to shrink the queue below what is posted.
-/
import Rxe.QueueResize

namespace Rxe

/-! ### The verb -/

/-- `struct ib_srq_attr` -/
structure SrqAttr where
  maxWr : ℕ
  maxSge : ℕ := 0
  srqLimit : ℕ := 0
  deriving DecidableEq, Repr

/-- What the SRQ code reads of the attributes of the device. -/
structure SrqDev where
  maxSrqWr : ℕ := 0x4000
  maxSrqSge : ℕ := 27
  -- `device_cap_flags & IB_DEVICE_SRQ_RESIZE`
  srqResize : Bool := true
  deriving DecidableEq, Repr

/-- `struct rxe_srq` for the verbs, with the header of its queue unless that is a null pointer. -/
structure SrqObj where
  queue : Option Queue
  maxSge : ℕ
  limit : ℕ := 0
  error : Bool := false
  deriving DecidableEq, Repr

/-- `struct ib_udata` -/
structure SrqUdata where
  inlen : ℕ
  outlen : ℕ
  deriving DecidableEq, Repr

/-- How the copies of the address and of the record end, and the resize. -/
structure SrqEnv where
  copyFrom : Bool := true
  copyTo : Bool := true
  resize : ResizeEnv
  deriving DecidableEq, Repr

inductive SrqErr
  | einval | efault | resize (e : ResizeErr)
  deriving DecidableEq, Repr

variable {α : Type}

/-- `mask & IB_SRQ_MAX_WR` -/
def srqMaxWr (mask : ℕ) : Bool := mask.testBit 0

/-- `mask & IB_SRQ_LIMIT` -/
def srqLimit (mask : ℕ) : Bool := mask.testBit 1

/-- `IB_SRQ_INIT_MASK` -/
def srqInitMask : ℕ := 2 ^ 32 - 3

/-- The checks of `rxe_srq_chk_attr` on the new size. -/
def srqMaxWrRefused (dev : SrqDev) (srq : SrqObj) (attr : SrqAttr) (mask : ℕ) : Bool :=
  srqMaxWr mask && (dev.maxSrqWr < attr.maxWr || attr.maxWr = 0 || !dev.srqResize ||
    (srq.limit ≠ 0 && attr.maxWr < srq.limit))

/-- `srq->rq.queue->buf->index_mask` -/
def srqIndexMask (m : QueueMem α) (srq : SrqObj) : Option ℕ := do
  let q ← srq.queue
  let b ← m.buf q.buf
  some b.indexMask

/-- The checks of `rxe_srq_chk_attr` on the new limit. -/
def srqLimitRefused (dev : SrqDev) (m : QueueMem α) (srq : SrqObj) (attr : SrqAttr) (mask : ℕ) :
    Option Bool :=
  if srqLimit mask then
    if dev.maxSrqWr < attr.srqLimit then some true
    else (srqIndexMask m srq).map fun indexMask => indexMask < attr.srqLimit
  else some false

/-- `RXE_MIN_SRQ_WR` -/
def minSrqWr : ℕ := 1

/-- `rxe_srq_chk_attr` for an existing SRQ: the attributes, unless the request is refused. -/
def rxeSrqChkAttr (dev : SrqDev) (m : QueueMem α) (srq : SrqObj) (attr : SrqAttr) (mask : ℕ) :
    Option (Option SrqAttr) :=
  if srq.error || srqMaxWrRefused dev srq attr mask then some none
  else
    match srqLimitRefused dev m srq attr mask with
    | none => none
    | some limitRefused =>
      if limitRefused || (mask = srqInitMask && dev.maxSrqSge < attr.maxSge) then some none
      else some (some { attr with
        maxWr := if srqMaxWr mask then max attr.maxWr minSrqWr else attr.maxWr })

/-- `RCV_WQE_SIZE` -/
def rcvWqeSize (maxSge : ℕ) : ℕ := 40 + 16 * maxSge

/-- The `outlen` that the resize is given, unless the record cannot be written: an address of
it that was passed in is used in place of the response. -/
def srqOutlen (env : SrqEnv) : Option SrqUdata → Option (Option ℕ)
  | none => some none
  | some udata =>
    if udata.inlen < 8 then some (some udata.outlen)
    else if env.copyFrom && env.copyTo then some (some mminfoSize)
    else none

/-- `if (mask & IB_SRQ_LIMIT) srq->limit = attr->srq_limit` -/
def setSrqLimit (srq : SrqObj) (attr : SrqAttr) (mask : ℕ) : SrqObj :=
  if srqLimit mask then { srq with limit := attr.srqLimit } else srq

/-- `rxe_srq_from_attr` after the resize: its exit `err2` cleans up the queue. -/
def srqResized (srq : SrqObj) (attr : SrqAttr) (mask : ℕ) :
    Except ResizeErr ℕ × Queue × QueueMem α → Except SrqErr Unit × SrqObj × QueueMem α
  | (.error e, q, m) => (.error (.resize e), { srq with queue := none }, rxeQueueCleanup m q)
  | (.ok _, q, m) => (.ok (), setSrqLimit { srq with queue := some q } attr mask, m)

/-- `rxe_srq_from_attr` -/
def rxeSrqFromAttr [Inhabited α] (m : QueueMem α) (srq : SrqObj) (attr : SrqAttr) (mask : ℕ)
    (udata : Option SrqUdata) (env : SrqEnv) : Option (Except SrqErr Unit × SrqObj × QueueMem α) :=
  if srqMaxWr mask then
    match srqOutlen env udata with
    | none => some (.error .efault, srq, m)
    | some outlen =>
      match srq.queue with
      | none => none
      | some q =>
        (rxeQueueResize m q env.resize outlen attr.maxWr (rcvWqeSize srq.maxSge)).map
          (srqResized srq attr mask)
  else some (.ok (), setSrqLimit srq attr mask, m)

/-- `rxe_modify_srq` -/
def rxeModifySrq [Inhabited α] (dev : SrqDev) (m : QueueMem α) (srq : SrqObj) (attr : SrqAttr)
    (mask : ℕ) (udata : Option SrqUdata) (env : SrqEnv) :
    Option (Except SrqErr Unit × SrqObj × QueueMem α) :=
  match rxeSrqChkAttr dev m srq attr mask with
  | none => none
  | some none => some (.error .einval, srq, m)
  | some (some attr) => rxeSrqFromAttr m srq attr mask udata env

/-! ### When a resize fails -/

/-- Something cannot be allocated, or there is no room for the elements. -/
def ResizeFails (env : ResizeEnv) (udata : Option ℕ) (numElem : ℕ) (l : List α) : Prop :=
  env.header = false ∨ env.buf = none ∨ MmapFails env udata ∨ queueCapacity numElem < l.length

section Resize

variable [Inhabited α] {m : QueueMem α} {q : Queue} {b : QueueBuf α} {l : List α} {env : ResizeEnv}
  {udata : Option ℕ} {numElem : ℕ} (elemSize : ℕ)

theorem resize_error (hcontent : Content q b l) (hstart : ResizeStart m q env b)
    (hfails : ResizeFails env udata numElem l) :
    ∃ e, rxeQueueResize m q env udata numElem elemSize = some (.error e, q, m) := by
  by_cases halloc : AllocFails env udata
  · exact resize_fails numElem elemSize hstart halloc
  · have hlt : queueCapacity numElem < l.length := by
      rcases hfails with h | h | h | h
      · exact absurd (.inl h) halloc
      · exact absurd (.inr (.inl h)) halloc
      · exact absurd (.inr (.inr h)) halloc
      · exact h
    obtain ⟨n, newQ, m', hres, hnewBuf, hnew, -, hfin⟩ := rxeQueueResize_allocated numElem elemSize
      hstart hcontent.count halloc
    rw [if_pos hlt] at hfin
    exact ⟨.einval, hres.trans (hnew.refused hnewBuf rfl hfin)⟩

theorem resize_no_error {e : ResizeErr} {r : Queue × QueueMem α} (hcontent : Content q b l)
    (hstart : ResizeStart m q env b) (hfails : ¬ ResizeFails env udata numElem l) :
    rxeQueueResize m q env udata numElem elemSize ≠ some (.error e, r) := by
  have halloc : ¬ AllocFails env udata := by
    rintro (h | h | h)
    · exact hfails (.inl h)
    · exact hfails (.inr (.inl h))
    · exact hfails (.inr (.inr (.inl h)))
  obtain ⟨n, newQ, m', hres, hnewBuf, hnew, -, hfin⟩ := rxeQueueResize_allocated numElem elemSize
    hstart hcontent.count halloc
  rw [if_neg fun hlt => hfails (.inr (.inr (.inr hlt)))] at hfin
  rw [hres, hnew.swap_eq hnewBuf, hfin]
  cases moveElems q newQ l.length (b, newQueueBuf numElem elemSize) with
  | none =>
    intro h
    cases h
  | some bs =>
    intro h
    have hok := congrArg (Option.map Prod.fst) h
    cases hok

end Resize

/-! ### A failed request -/

/-- The request is refused by `rxe_srq_chk_attr`, with the index mask of the queue. -/
def srqRefused (dev : SrqDev) (srq : SrqObj) (indexMask : ℕ) (attr : SrqAttr) (mask : ℕ) : Bool :=
  srq.error || srqMaxWrRefused dev srq attr mask ||
    (srqLimit mask && (dev.maxSrqWr < attr.srqLimit || indexMask < attr.srqLimit)) ||
    (mask = srqInitMask && dev.maxSrqSge < attr.maxSge)

/-- If the request fails, the SRQ with all it refers to is as before. -/
def ModifyHarmless [Inhabited α] (dev : SrqDev) (m : QueueMem α) (srq : SrqObj) (attr : SrqAttr)
    (mask : ℕ) (udata : Option SrqUdata) (env : SrqEnv) : Prop :=
  ∀ e srq' m', rxeModifySrq dev m srq attr mask udata env = some (.error e, srq', m') →
    srq' = srq ∧ m' = m

theorem rxeSrqChkAttr_eq {dev : SrqDev} {m : QueueMem α} {srq : SrqObj} {q : Queue} {b : QueueBuf α}
    {attr : SrqAttr} {mask : ℕ} (hq : srq.queue = some q) (hb : m.buf q.buf = some b) :
    rxeSrqChkAttr dev m srq attr mask =
      some (if srqRefused dev srq b.indexMask attr mask then none else some { attr with
        maxWr := if srqMaxWr mask then max attr.maxWr minSrqWr else attr.maxWr }) := by
  have hmask : srqIndexMask m srq = some b.indexMask := by
    simp only [srqIndexMask, hq, hb, Option.bind_eq_bind, Option.bind_some]
  have hlimit : srqLimitRefused dev m srq attr mask =
      some (srqLimit mask && (dev.maxSrqWr < attr.srqLimit || b.indexMask < attr.srqLimit)) := by
    rw [srqLimitRefused, hmask]
    cases srqLimit mask with
    | false => rfl
    | true =>
      by_cases hlt : dev.maxSrqWr < attr.srqLimit
      · simp [hlt]
      · simp [hlt]
  rw [rxeSrqChkAttr, srqRefused, hlimit]
  cases srq.error || srqMaxWrRefused dev srq attr mask with
  | true => rfl
  | false =>
    rw [Bool.false_or, if_neg Bool.false_ne_true]
    dsimp only
    split <;> rfl

/-- A failed request leaves the SRQ and its queue as they were exactly if it does not fail in the
resize: it is refused before, does not ask for one, cannot write the record, or the resize finds
everything it needs. -/
theorem modify_srq_iff [Inhabited α] (dev : SrqDev) (m : QueueMem α) (srq : SrqObj) (q : Queue)
    (b : QueueBuf α) (l : List α) (attr : SrqAttr) (mask : ℕ) (udata : Option SrqUdata)
    (env : SrqEnv) (hq : srq.queue = some q) (hcontent : Content q b l)
    (hstart : ResizeStart m q env.resize b) :
    ModifyHarmless dev m srq attr mask udata env ↔
      srqRefused dev srq b.indexMask attr mask ∨ srqMaxWr mask = false ∨
        srqOutlen env udata = none ∨
        ∃ outlen, srqOutlen env udata = some outlen ∧
          ¬ ResizeFails env.resize outlen (max attr.maxWr minSrqWr) l := by
  unfold ModifyHarmless rxeModifySrq
  rw [rxeSrqChkAttr_eq hq hstart.buf]
  by_cases hrefused : srqRefused dev srq b.indexMask attr mask
  · rw [if_pos hrefused]
    refine iff_of_true (fun e srq' m' h => ?_) (.inl hrefused)
    cases h
    exact ⟨rfl, rfl⟩
  rw [if_neg hrefused]
  dsimp only
  unfold rxeSrqFromAttr
  cases hmask : srqMaxWr mask with
  | false =>
    refine iff_of_true (fun e srq' m' h => ?_) (.inr (.inl rfl))
    cases h
  | true =>
    rw [if_pos rfl, if_pos rfl]
    cases hout : srqOutlen env udata with
    | none =>
      refine iff_of_true (fun e srq' m' h => ?_) (.inr (.inr (.inl rfl)))
      cases h
      exact ⟨rfl, rfl⟩
    | some outlen =>
      rw [hq]
      dsimp only
      by_cases hfails : ResizeFails env.resize outlen (max attr.maxWr minSrqWr) l
      · -- the resize has changed nothing, but the queue is cleaned up after it
        obtain ⟨e, hres⟩ := resize_error (rcvWqeSize srq.maxSge) hcontent hstart hfails
        rw [hres, Option.map_some, srqResized]
        refine iff_of_false (fun h => ?_) ?_
        · have hlost := congrArg SrqObj.queue (h _ _ _ rfl).1
          rw [hq] at hlost
          cases hlost
        · rintro (h | h | h | ⟨outlen', h, hok⟩)
          · exact hrefused h
          · cases h
          · cases h
          · cases h
            exact hok hfails
      · refine iff_of_true (fun e srq' m' h => ?_) (.inr (.inr (.inr ⟨outlen, rfl, hfails⟩)))
        obtain ⟨⟨r, q', m₁⟩, hres, hmap⟩ := Option.map_eq_some_iff.1 h
        cases r with
        | error e' => exact absurd hres (resize_no_error _ hcontent hstart hfails)
        | ok n => cases hmap

/-- An SRQ for three receive WQEs of one SGE each. -/
def srqThree : SrqObj where
  queue := some (newQueue 0 3 56)
  maxSge := 1

/-- Its buffer, with two WQEs posted. -/
def twoPosted : QueueBuf ℕ where
  log2ElemSize := 6
  indexMask := 3
  producerIndex := 2
  data := [7, 8, 0, 0]

/-- A process asks for a queue of one entry while two are posted.  The request is answered with
an error as it should be, and the SRQ has no queue any more: its buffer is gone. -/
theorem modify_srq_loses_queue :
    (rxeModifySrq {} { buf := Function.update (fun _ => none) 0 (some twoPosted) } srqThree
      { maxWr := 1 } 1 none { resize := { buf := some 1 } }).map
        (fun r => (r.1.toOption, r.2.1, r.2.2.buf 0)) =
      some (none, { srqThree with queue := none }, none) := by
  decide +kernel

theorem twoPosted_content : Content (newQueue 0 3 56) twoPosted [7, 8] := by
  refine .inl ⟨2, ⟨?_, rfl, ?_, ?_, ?_, rfl, ?_, ?_⟩, ?_, ?_⟩ <;> decide +kernel

/-- A process asks for more than the device allows while two WQEs are posted: the request fails
and leaves them alone. -/
theorem modify_srq_refused :
    (rxeModifySrq {} { buf := Function.update (fun _ => none) 0 (some twoPosted) } srqThree
      { maxWr := 0x5000 } 1 none { resize := { buf := some 1 } }).map (·.1) =
        some (.error .einval) ∧
    ModifyHarmless {} { buf := Function.update (fun _ => none) 0 (some twoPosted) } srqThree
      { maxWr := 0x5000 } 1 none { resize := { buf := some 1 } } := by
  refine ⟨rfl, ?_⟩
  have hstart := ResizeStart.single twoPosted (newQueue_buf 0 3 56) (newQueue_ip 0 3 56)
  exact (modify_srq_iff {} _ srqThree _ _ [7, 8] _ 1 none { resize := { buf := some 1 } } rfl
    twoPosted_content hstart).2 (.inl (by decide))

end Rxe
