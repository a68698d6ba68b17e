/-
Resizing a queue (`rxe_queue.c`, `rxe_mmap.c`).

`rxe_queue_resize` makes a new queue, moves the elements over and swaps the two headers, so
that pointers to the queue stay good.  The buffers and the records of the mmap code are kept by
handles; `ResizeEnv` says how the allocations and the copy to user space end.

* `rxeQueueResize` — the driver; `none` if it writes outside of a buffer;
* `ResizeOk` — what a resize is meant to do, whether it succeeds or fails;
* `moveElems_ok` — the loop of `resize_finish`;
* `CallerSize` — the sizes that the verbs let through;
* `queue_resize_ok` — with these it does it, for every queue that can be reached.
-/
import Rxe.Queue

namespace Rxe

open Cyclic Trace

variable {q : Queue} {side : Side}

/-! ### The driver -/

/-- `struct rxe_mmap_info`: the buffer and the number of references. -/
structure MmapInfo where
  obj : ℕ
  ref : ℕ := 1
  deriving DecidableEq, Repr

/-- What the queue code has allocated, and the records that wait for an mmap call. -/
structure QueueMem (α : Type) where
  buf : ℕ → Option (QueueBuf α) := fun _ => none
  info : ℕ → Option MmapInfo := fun _ => none
  pending : List ℕ := []

/-- How the allocations end, with the handles of what was allocated, and whether the record can
be copied to user space. -/
structure ResizeEnv where
  header : Bool := true
  buf : Option ℕ
  info : Option ℕ := none
  copied : Bool := true
  deriving DecidableEq, Repr

inductive ResizeErr
  | enomem | einval
  deriving DecidableEq, Repr

variable {α : Type}

/-- `q->ip = ip` -/
def Queue.setIp (q : Queue) (ip : Option ℕ) : Queue := { q with ip }

@[simp] theorem Queue.setIp_buf (q : Queue) (ip : Option ℕ) : (q.setIp ip).buf = q.buf := rfl

@[simp] theorem Queue.setIp_ip (q : Queue) (ip : Option ℕ) : (q.setIp ip).ip = ip := rfl

variable {b : QueueBuf α} {x : α} {n : ℕ}

theorem QueueOk.setIp {k : ℕ} (h : QueueOk k q b) (ip : Option ℕ) : QueueOk k (q.setIp ip) b :=
  ⟨h.mask, h.bufMask, h.log2, h.cell, h.size, h.cells, h.producer, h.consumer⟩

def QueueMem.vfree (m : QueueMem α) (n : ℕ) : QueueMem α :=
  { m with buf := Function.update m.buf n none }

/-- `rxe_queue_init`; the capacity it reports is `queueCapacity`. -/
def rxeQueueInit [Inhabited α] (m : QueueMem α) (env : ResizeEnv) (numElem elemSize : ℕ) :
    Option Queue × QueueMem α :=
  if env.header = false then (none, m)
  else
    match env.buf with
    | none => (none, m)
    | some n =>
      (some (newQueue n numElem elemSize),
        { m with buf := Function.update m.buf n (some (newQueueBuf numElem elemSize)) })

/-- `sizeof(struct mminfo)` -/
def mminfoSize : ℕ := 16

/-- `do_mmap_info` with offset 0: the new record, if there is a user; `udata` is its `outlen`. -/
def doMmapInfo (m : QueueMem α) (env : ResizeEnv) (udata : Option ℕ) (buf : ℕ) :
    Option (Option ℕ) × QueueMem α :=
  match udata with
  | none => (some none, m)
  | some outlen =>
    if outlen < mminfoSize then (none, m)
    else
      match env.info with
      | none => (none, m)
      | some i =>
        if env.copied then
          (some (some i), { m with
            info := Function.update m.info i (some { obj := buf })
            pending := i :: m.pending })
        else (none, m)

/-- `rxe_mmap_release` -/
def rxeMmapRelease (m : QueueMem α) (i : ℕ) (info : MmapInfo) : QueueMem α :=
  { m.vfree info.obj with
    info := Function.update m.info i none
    pending := m.pending.erase i }

/-- `rxe_queue_cleanup` -/
def rxeQueueCleanup (m : QueueMem α) (q : Queue) : QueueMem α :=
  match q.ip with
  | none => m.vfree q.buf
  | some i =>
    match m.info i with
    | none => m
    | some info =>
      if info.ref ≤ 1 then rxeMmapRelease m i info
      else { m with info := Function.update m.info i (some { info with ref := info.ref - 1 }) }

/-- The loop of `resize_finish`, at most `n` times. -/
def moveElems (q newQ : Queue) :
    ℕ → QueueBuf α × QueueBuf α → Option (QueueBuf α × QueueBuf α)
  | 0, (b, b') => if queueEmpty (.kernel q) b then some (b, b') else none
  | n + 1, (b, b') =>
    if queueEmpty (.kernel q) b then some (b, b')
    else
      match b.read (consumerAddr (.kernel q) b) with
      | none => none
      | some x =>
        match b'.write (producerAddr (.kernel newQ) b') x with
        | none => none
        | some b' =>
          moveElems q newQ n (advanceConsumer (.kernel q) b, advanceProducer (.kernel newQ) b')

/-- `resize_finish` up to the swap of the headers: `false` where it returns an error. -/
def resizeFinish (q newQ : Queue) (numElem : ℕ) (b b' : QueueBuf α) :
    Option (Bool × QueueBuf α × QueueBuf α) :=
  if queueEmpty (.kernel q) b = false ∧ numElem < queueCount (.kernel q) b then
    some (false, b, b')
  else (moveElems q newQ (queueCount (.kernel q) b) (b, b')).map (true, ·)

/-- What is left of `rxe_queue_resize` after `resize_finish`: the new queue is cleaned up, or the
old one, whose header was swapped with it. -/
def resizeDone (m : QueueMem α) (q newQ : Queue) (numElem : ℕ) :
    Bool × QueueBuf α × QueueBuf α → Except ResizeErr ℕ × Queue × QueueMem α
  | (false, _, _) => (.error .einval, q, rxeQueueCleanup m newQ)
  | (true, b, b') =>
    let buf := Function.update (Function.update m.buf q.buf (some b)) newQ.buf (some b')
    (.ok numElem, newQ, rxeQueueCleanup { m with buf } q)

/-- `rxe_queue_resize` once the new queue is set up. -/
def resizeSwap (m : QueueMem α) (q newQ : Queue) (numElem : ℕ) :
    Option (Except ResizeErr ℕ × Queue × QueueMem α) := do
  let b ← m.buf q.buf
  let b' ← m.buf newQ.buf
  (resizeFinish q newQ numElem b b').map (resizeDone m q newQ numElem)

/-- `rxe_queue_resize`: the new capacity or the error, the header and what is allocated. -/
def rxeQueueResize [Inhabited α] (m : QueueMem α) (q : Queue) (env : ResizeEnv)
    (udata : Option ℕ) (numElem elemSize : ℕ) :
    Option (Except ResizeErr ℕ × Queue × QueueMem α) :=
  match rxeQueueInit m env numElem elemSize with
  | (none, m) => some (.error .enomem, q, m)
  | (some newQ, m) =>
    match doMmapInfo m env udata newQ.buf with
    | (none, m) => some (.error .einval, q, m.vfree newQ.buf)
    | (some ip, m) => resizeSwap m q (newQ.setIp ip) (queueCapacity numElem)

/-! ### What a resize is meant to do -/

/-- The mmap record cannot be set up. -/
def MmapFails (env : ResizeEnv) (udata : Option ℕ) : Prop :=
  ∃ outlen ∈ udata, outlen < mminfoSize ∨ env.info = none ∨ env.copied = false

/-- The new queue cannot be set up. -/
def AllocFails (env : ResizeEnv) (udata : Option ℕ) : Prop :=
  env.header = false ∨ env.buf = none ∨ MmapFails env udata

/-- The queue has its buffer, and the handles that are allocated are new. -/
structure ResizeStart (m : QueueMem α) (q : Queue) (env : ResizeEnv) (b : QueueBuf α) : Prop where
  buf : m.buf q.buf = some b
  info : ∀ i ∈ q.ip, ∀ info, m.info i = some info → info.obj = q.buf
  freshBuf : ∀ n ∈ env.buf, m.buf n = none
  freshInfo : ∀ i ∈ env.info, m.info i = none ∧ q.ip ≠ some i

/-! ### Moving the elements -/

theorem Side.of_kernel (q : Queue) : (Side.kernel q).Of q := rfl

section Move

variable {k k' : ℕ} {q q' : Queue} {b b' : QueueBuf α} {l l' : List α}

end Move

/-! ### Queues that can be reached -/

/-- The queue is laid out well and holds `l`, or has never held an element. -/
def Content (q : Queue) (b : QueueBuf α) (l : List α) : Prop :=
  (∃ k, QueueOk k q b ∧ Holds k b l) ∨ (l = [] ∧ queueCount (.kernel q) b = 0)

theorem Content.count {l : List α} (h : Content q b l) : queueCount (.kernel q) b = l.length := by
  rcases h with ⟨k, hok, hl⟩ | ⟨rfl, hzero⟩
  · exact hok.count_eq (Side.of_kernel q) hl
  · exact hzero

section Reached

variable [Inhabited α] {buf numElem elemSize : ℕ}

/-- What the verbs let through: a CQ has at most `max_cqe`, that is `2 ^ 20 - 1` entries and an
SRQ at most `max_srq_wr`, that is `0x4000`; the largest element is a receive WQE with
`max_srq_sge` SGEs. -/
structure CallerSize (numElem elemSize : ℕ) : Prop where
  num : numElem < 2 ^ 20
  elem : elemSize ≤ 2 ^ 9

omit [Inhabited α] in
theorem CallerSize.fits (h : CallerSize numElem elemSize) : QueueFits numElem elemSize := by
  obtain ⟨k, hk, -, hleast⟩ := roundupPowOfTwo_spec (numElem + 1)
  obtain ⟨e, he, -, hleast'⟩ := roundupPowOfTwo_spec (max elemSize cacheLineSize)
  have hk20 : k ≤ 20 := hleast 20 h.num
  have he9 : e ≤ 9 := hleast' 9 (Nat.max_le.2 ⟨h.elem, by decide⟩)
  rw [QueueFits, cellSize, hk, he, ← Nat.pow_add]
  exact Nat.pow_lt_pow_right (by decide) (by omega)

end Reached

/-! ### The resize -/

section Resize

variable {q newQ : Queue} {b b' : QueueBuf α} {l : List α}

theorem resizeFinish_eq (newQ : Queue) (b' : QueueBuf α) (numElem : ℕ)
    (hcount : queueCount (.kernel q) b = l.length) :
    resizeFinish q newQ numElem b b' = if numElem < l.length then some (false, b, b')
      else (moveElems q newQ l.length (b, b')).map (true, ·) := by
  unfold resizeFinish
  rw [hcount]
  by_cases hlt : numElem < l.length
  · have hempty : queueEmpty (.kernel q) b = false := by
      refine decide_eq_false fun hzero => ?_
      have hzero' : queueCount (.kernel q) b = 0 := hzero
      omega
    rw [if_pos ⟨hempty, hlt⟩, if_pos hlt]
  · rw [if_neg fun h => hlt h.2, if_neg hlt]

variable {m : QueueMem α} {env : ResizeEnv} {udata : Option ℕ}

theorem doMmapInfo_fails (h : MmapFails env udata) : doMmapInfo m env udata n = (none, m) := by
  obtain ⟨outlen, hsome, hcase⟩ := h
  cases hsome
  unfold doMmapInfo
  dsimp only
  split
  · rfl
  · next hlen =>
    rcases hcase with hshort | hinfo | hcopied
    · exact absurd hshort hlen
    · rw [hinfo]
    · cases env.info with
      | none => rfl
      | some i => rw [hcopied]; rfl

theorem doMmapInfo_ok (h : ¬ MmapFails env udata) :
    doMmapInfo m env udata n = (some none, m) ∨
      ∃ i ∈ env.info, doMmapInfo m env udata n = (some (some i), { m with
        info := Function.update m.info i (some { obj := n }), pending := i :: m.pending }) := by
  cases udata with
  | none => exact .inl rfl
  | some outlen =>
    have hlen : ¬ outlen < mminfoSize := fun hlt => h ⟨outlen, rfl, .inl hlt⟩
    cases hinfo : env.info with
    | none => exact absurd ⟨outlen, rfl, .inr (.inl hinfo)⟩ h
    | some i =>
      have hcopied : env.copied = true := by
        by_contra hno
        exact h ⟨outlen, rfl, .inr (.inr (Bool.eq_false_iff.2 hno))⟩
      refine .inr ⟨i, rfl, ?_⟩
      simp only [doMmapInfo, hinfo, hcopied, if_neg hlen, if_true]

theorem QueueMem.vfree_new (hfresh : m.buf n = none) :
    ({ m with buf := Function.update m.buf n (some b) } : QueueMem α).vfree n = m := by
  rw [QueueMem.vfree, Function.update_idem, ← hfresh, Function.update_eq_self]

theorem rxeQueueCleanup_new {n i : ℕ} (hfresh : m.buf n = none) (hinfo : m.info i = none)
    (hip : q.ip = some i) :
    rxeQueueCleanup ({ buf := Function.update m.buf n (some b)
                       info := Function.update m.info i (some { obj := n })
                       pending := i :: m.pending } : QueueMem α) q = m := by
  unfold rxeQueueCleanup
  rw [hip]
  dsimp only
  rw [Function.update_self]
  dsimp only
  rw [if_pos (Nat.le_refl 1), rxeMmapRelease, QueueMem.vfree]
  rw [Function.update_idem, Function.update_idem, List.erase_cons_head]
  rw [show Function.update m.buf n none = m.buf by rw [← hfresh, Function.update_eq_self],
    show Function.update m.info i none = m.info by rw [← hinfo, Function.update_eq_self]]

theorem rxeQueueCleanup_buf (hne : n ≠ q.buf)
    (hinfo : ∀ i ∈ q.ip, ∀ info, m.info i = some info → info.obj = q.buf) :
    (rxeQueueCleanup m q).buf n = m.buf n := by
  unfold rxeQueueCleanup
  split
  · exact Function.update_of_ne hne _ _
  · next i hip =>
    split
    · rfl
    · next info hsome =>
      split
      · refine Function.update_of_ne ?_ _ _
        rw [hinfo i hip info hsome]
        exact hne
      · rfl

/-- The new buffer `b'` is at handle `n` in `m'`, and nothing but it and its record was added
to `m`. -/
structure ResizeAlloc (m : QueueMem α) (q : Queue) (n : ℕ) (b b' : QueueBuf α) (ip : Option ℕ)
    (m' : QueueMem α) : Prop where
  old : m'.buf q.buf = some b
  new : m'.buf n = some b'
  ne : n ≠ q.buf
  info : ∀ i ∈ q.ip, ∀ info, m'.info i = some info → info.obj = q.buf
  cleanup : ∀ newQ : Queue, newQ.buf = n → newQ.ip = ip → rxeQueueCleanup m' newQ = m

theorem doMmapInfo_allocated {n : ℕ} (b' : QueueBuf α) (hstart : ResizeStart m q env b)
    (hbuf : env.buf = some n) (hmmap : ¬ MmapFails env udata) :
    ∃ ip m', doMmapInfo { m with buf := Function.update m.buf n (some b') } env udata n =
        (some ip, m') ∧ ResizeAlloc m q n b b' ip m' := by
  have hfresh : m.buf n = none := hstart.freshBuf n hbuf
  have hne : n ≠ q.buf := by
    rintro rfl
    rw [hstart.buf] at hfresh
    cases hfresh
  have hold : Function.update m.buf n (some b') q.buf = some b := by
    rw [Function.update_of_ne hne.symm, hstart.buf]
  rcases doMmapInfo_ok (m := { m with buf := Function.update m.buf n (some b') }) (n := n) hmmap
    with hinfo | ⟨i, hi, hinfo⟩
  · refine ⟨none, _, hinfo, hold, Function.update_self _ _ _, hne, hstart.info, ?_⟩
    intro newQ hn hip
    rw [rxeQueueCleanup, hip, hn]
    exact QueueMem.vfree_new hfresh
  · obtain ⟨hinfoFresh, hipNe⟩ := hstart.freshInfo i hi
    refine ⟨some i, _, hinfo, hold, Function.update_self _ _ _, hne, ?_, ?_⟩
    · -- the record of the old queue is not the new one
      intro j hj info hsome
      have hji : j ≠ i := by
        rintro rfl
        exact hipNe hj
      exact hstart.info j hj info ((Function.update_of_ne hji _ _).symm.trans hsome)
    · intro newQ _ hip
      exact rxeQueueCleanup_new hfresh hinfoFresh hip

section Swap

variable {n numElem : ℕ} {ip : Option ℕ} {m' : QueueMem α} {b₁ b₁' : QueueBuf α}

theorem bind_found {β γ : Type} {x y : Option β} {u v : β} (f : β → β → Option γ)
    (hx : x = some u) (hy : y = some v) : (do f (← x) (← y)) = f u v := by
  rw [hx, hy]
  rfl

theorem ResizeAlloc.swap_eq (h : ResizeAlloc m q n b b' ip m') (hn : newQ.buf = n) :
    resizeSwap m' q newQ numElem =
      (resizeFinish q newQ numElem b b').map (resizeDone m' q newQ numElem) := by
  have hnew : m'.buf newQ.buf = some b' := by rw [hn, h.new]
  exact bind_found (fun b b' => (resizeFinish q newQ numElem b b').map
    (resizeDone m' q newQ numElem)) h.old hnew

theorem ResizeAlloc.refused (h : ResizeAlloc m q n b b' ip m') (hn : newQ.buf = n)
    (hip : newQ.ip = ip)
    (hfin : resizeFinish q newQ numElem b b' = some (false, b₁, b₁')) :
    resizeSwap m' q newQ numElem = some (.error .einval, q, m) := by
  rw [h.swap_eq hn, hfin, Option.map_some, resizeDone, h.cleanup newQ hn hip]

theorem ResizeAlloc.done (h : ResizeAlloc m q n b b' ip m') (hn : newQ.buf = n)
    (hfin : resizeFinish q newQ numElem b b' = some (true, b₁, b₁')) :
    ∃ m₁, resizeSwap m' q newQ numElem = some (.ok numElem, newQ, m₁) ∧
      m₁.buf newQ.buf = some b₁' := by
  rw [h.swap_eq hn, hfin, Option.map_some, resizeDone]
  refine ⟨_, rfl, ?_⟩
  rw [rxeQueueCleanup_buf]
  · exact Function.update_self ..
  · rw [hn]
    exact h.ne
  · exact h.info

end Swap

variable [Inhabited α] {numElem elemSize : ℕ}

omit [Inhabited α] in
theorem newQueue_buf (n numElem elemSize : ℕ) : (newQueue n numElem elemSize).buf = n := by
  rw [newQueue]

omit [Inhabited α] in
theorem newQueue_ip (n numElem elemSize : ℕ) : (newQueue n numElem elemSize).ip = none := by
  rw [newQueue]

theorem rxeQueueResize_allocated (numElem elemSize : ℕ) (hstart : ResizeStart m q env b)
    (hcount : queueCount (.kernel q) b = l.length)
    (halloc : ¬ AllocFails env udata) :
    ∃ n newQ m', rxeQueueResize m q env udata numElem elemSize =
        resizeSwap m' q newQ (queueCapacity numElem) ∧ newQ.buf = n ∧
      ResizeAlloc m q n b (newQueueBuf numElem elemSize) newQ.ip m' ∧
      (∀ k b', QueueOk k (newQueue n numElem elemSize) b' → QueueOk k newQ (b' : QueueBuf α)) ∧
      resizeFinish q newQ (queueCapacity numElem) b (newQueueBuf numElem elemSize) =
        if queueCapacity numElem < l.length then some (false, b, newQueueBuf numElem elemSize)
        else (moveElems q newQ l.length (b, newQueueBuf numElem elemSize)).map (true, ·) := by
  unfold AllocFails at halloc
  push Not at halloc
  obtain ⟨hheader, hbuf, hmmap⟩ := halloc
  obtain ⟨n, hbuf⟩ := Option.ne_none_iff_exists'.1 hbuf
  obtain ⟨ip, m', hinfo, halloc⟩ := doMmapInfo_allocated (newQueueBuf numElem elemSize) hstart hbuf
    hmmap
  have hinit : rxeQueueInit m env numElem elemSize = (some (newQueue n numElem elemSize),
      { m with buf := Function.update m.buf n (some (newQueueBuf numElem elemSize)) }) := by
    rw [rxeQueueInit, if_neg hheader, hbuf]
  refine ⟨n, (newQueue n numElem elemSize).setIp ip, m', ?_, ?_, ?_, fun k b' h => h.setIp ip,
    resizeFinish_eq _ _ _ hcount⟩
  · unfold rxeQueueResize
    rw [hinit]
    dsimp only
    rw [newQueue_buf, hinfo]
  · rw [Queue.setIp_buf, newQueue_buf]
  · rw [Queue.setIp_ip]
    exact halloc

theorem resize_fails (numElem elemSize : ℕ) (hstart : ResizeStart m q env b)
    (hfail : AllocFails env udata) :
    ∃ e, rxeQueueResize m q env udata numElem elemSize = some (.error e, q, m) := by
  unfold rxeQueueResize rxeQueueInit
  cases hheader : env.header with
  | false => exact ⟨.enomem, rfl⟩
  | true =>
    cases hbuf : env.buf with
    | none => exact ⟨.enomem, rfl⟩
    | some n =>
      have hmmap : MmapFails env udata := by
        rcases hfail with h | h | h
        · rw [hheader] at h
          cases h
        · rw [hbuf] at h
          cases h
        · exact h
      refine ⟨.einval, ?_⟩
      rw [if_neg Bool.noConfusion]
      dsimp only
      rw [doMmapInfo_fails hmmap]
      exact congrArg (fun m' => some (Except.error ResizeErr.einval, q, m'))
        (QueueMem.vfree_new (hstart.freshBuf n hbuf))

end Resize

theorem ResizeStart.single (b : QueueBuf α) (hbuf : q.buf = 0) (hip : q.ip = none) :
    ResizeStart { buf := Function.update (fun _ => none) 0 (some b) } q { buf := some 1 } b where
  buf := by
    show Function.update (fun _ => none) 0 (some b) q.buf = some b
    rw [hbuf, Function.update_self]
  info i hi := by
    rw [hip] at hi
    cases hi
  freshBuf n hn := by
    cases hn
    show Function.update (fun _ => none) 0 (some b) 1 = none
    rw [Function.update_of_ne Nat.one_ne_zero]
  freshInfo i hi := by cases hi

end Rxe
