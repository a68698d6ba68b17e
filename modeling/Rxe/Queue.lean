/-
The circular queue (`rxe_queue.h`, `rxe_queue.c`, `rxe_queue.h` of librxe).

The queue is a ring of `2 ^ k` cells that the kernel and a user process may share.  Both have
the same operations on it; the kernel takes the index mask and the size of a cell from its own
header, librxe takes them from the shared buffer.  A cell is addressed by its byte offset in
the data area, and `none` stands for an access outside of it.

The sizes are computed in `unsigned int`: the number of cells is cut off at 32 bits, and so is
the size of the data area.

* `newQueue`, `newQueueBuf` — what `rxe_queue_init` sets up;
* `QueueOk`, `Holds` — the layout of a queue, and the elements in it;
* `queueStep` — the producer and the consumer, step by step and in any order;
* `queue_inv` — what they keep.
-/
import Rxe.Cyclic
import Rxe.Qp
import Rxe.Trace

namespace Rxe

open Cyclic Trace

/-! ### The buffer and the operations on it -/

/-- A value cut off to an `unsigned int`. -/
def u32 (x : ℕ) : ℕ := x % 2 ^ 32

/-- `struct rxe_queue_buf`; `data` is the data area, cut into cells of `2 ^ log2ElemSize` bytes,
of which each holds an element. -/
structure QueueBuf (α : Type) where
  log2ElemSize : ℕ
  indexMask : ℕ
  producerIndex : ℕ := 0
  consumerIndex : ℕ := 0
  data : List α
  deriving DecidableEq, Repr

/-- `struct rxe_queue`; `buf` and `ip` are the handles of what the pointers point to. -/
structure Queue where
  buf : ℕ
  ip : Option ℕ := none
  bufSize : ℕ
  elemSize : ℕ
  log2ElemSize : ℕ
  indexMask : ℕ
  deriving DecidableEq, Repr

variable {α : Type}

/-- `(a - b) & mask` for two indices. -/
def indexDiff (mask a b : ℕ) : ℕ := u32 (a + 2 ^ 32 - b) &&& mask

/-- `queue_count` with a given mask; the operations of the kernel and those of librxe differ in
where they find the mask. -/
def ringCount (mask : ℕ) (b : QueueBuf α) : ℕ := indexDiff mask b.producerIndex b.consumerIndex

def ringEmpty (mask : ℕ) (b : QueueBuf α) : Bool :=
  indexDiff mask b.producerIndex b.consumerIndex = 0

def ringFull (mask : ℕ) (b : QueueBuf α) : Bool :=
  indexDiff mask (u32 (b.producerIndex + 1)) b.consumerIndex = 0

def ringAdvanceProducer (mask : ℕ) (b : QueueBuf α) : QueueBuf α :=
  { b with producerIndex := u32 (b.producerIndex + 1) &&& mask }

def ringAdvanceConsumer (mask : ℕ) (b : QueueBuf α) : QueueBuf α :=
  { b with consumerIndex := u32 (b.consumerIndex + 1) &&& mask }

/-- The offset of a cell in the data area. -/
def ringAddr (mask log2 index : ℕ) : ℕ := (index &&& mask) <<< log2

/-- The element at an offset. -/
def QueueBuf.read (b : QueueBuf α) (addr : ℕ) : Option α := b.data[addr >>> b.log2ElemSize]?

/-- An element is stored at an offset. -/
def QueueBuf.write (b : QueueBuf α) (addr : ℕ) (x : α) : Option (QueueBuf α) :=
  if addr >>> b.log2ElemSize < b.data.length then
    some { b with data := b.data.set (addr >>> b.log2ElemSize) x }
  else none

/-- Who uses the queue: the kernel with its header, or librxe. -/
inductive Side
  | kernel (q : Queue) | librxe

/-- `q->index_mask` -/
def Side.mask (side : Side) (b : QueueBuf α) : ℕ :=
  match side with
  | .kernel q => q.indexMask
  | .librxe => b.indexMask

/-- `q->log2_elem_size` -/
def Side.log2 (side : Side) (b : QueueBuf α) : ℕ :=
  match side with
  | .kernel q => q.log2ElemSize
  | .librxe => b.log2ElemSize

def queueCount (side : Side) (b : QueueBuf α) : ℕ := ringCount (side.mask b) b

def queueEmpty (side : Side) (b : QueueBuf α) : Bool := ringEmpty (side.mask b) b

def queueFull (side : Side) (b : QueueBuf α) : Bool := ringFull (side.mask b) b

def advanceProducer (side : Side) (b : QueueBuf α) : QueueBuf α :=
  ringAdvanceProducer (side.mask b) b

def advanceConsumer (side : Side) (b : QueueBuf α) : QueueBuf α :=
  ringAdvanceConsumer (side.mask b) b

def producerAddr (side : Side) (b : QueueBuf α) : ℕ :=
  ringAddr (side.mask b) (side.log2 b) b.producerIndex

def consumerAddr (side : Side) (b : QueueBuf α) : ℕ :=
  ringAddr (side.mask b) (side.log2 b) b.consumerIndex

/-! ### A new queue -/

/-- `cache_line_size()` -/
def cacheLineSize : ℕ := 64

/-- `sizeof(struct rxe_queue_buf)` -/
def queueBufHeader : ℕ := 384

/-- `num_slots` in `rxe_queue_init`. -/
def queueSlots (numElem : ℕ) : ℕ := u32 (roundupPowOfTwo (u32 (numElem + 1)))

/-- The size of a cell: `elem_size` padded to at least a cache line and to a power of two. -/
def cellSize (elemSize : ℕ) : ℕ := roundupPowOfTwo (max elemSize cacheLineSize)

/-- `num_slots*elem_size` -/
def queueDataSize (numElem elemSize : ℕ) : ℕ :=
  u32 (queueSlots numElem * u32 (cellSize elemSize))

/-- The capacity that `rxe_queue_init` reports in `num_elem`, and the index mask. -/
def queueCapacity (numElem : ℕ) : ℕ := u32 (queueSlots numElem + 2 ^ 32 - 1)

/-- The header `rxe_queue_init` fills in, with the buffer at a given handle. -/
def newQueue (buf numElem elemSize : ℕ) : Queue where
  buf
  bufSize := queueBufHeader + queueDataSize numElem elemSize
  elemSize
  log2ElemSize := Nat.log2 (u32 (cellSize elemSize))
  indexMask := queueCapacity numElem

/-- The buffer of a new queue; `vmalloc_user` clears it. -/
def newQueueBuf [Inhabited α] (numElem elemSize : ℕ) : QueueBuf α where
  log2ElemSize := Nat.log2 (u32 (cellSize elemSize))
  indexMask := queueCapacity numElem
  data := List.replicate (queueDataSize numElem elemSize / u32 (cellSize elemSize)) default

/-- The request fits: neither the number of cells nor the size of the data area is cut off. -/
def QueueFits (numElem elemSize : ℕ) : Prop :=
  roundupPowOfTwo (numElem + 1) * cellSize elemSize < 2 ^ 32

instance (numElem elemSize : ℕ) : Decidable (QueueFits numElem elemSize) :=
  inferInstanceAs (Decidable (_ < _))

theorem roundupPowOfTwo_spec (n : ℕ) : ∃ k, roundupPowOfTwo n = 2 ^ k ∧ n ≤ 2 ^ k ∧
    ∀ j, n ≤ 2 ^ j → k ≤ j := by
  unfold roundupPowOfTwo
  split
  · next hle => exact ⟨0, rfl, hle, fun j _ => Nat.zero_le j⟩
  · next hgt =>
    have hne : n - 1 ≠ 0 := by omega
    refine ⟨Nat.log2 (n - 1) + 1, rfl, ?_, fun j hj => ?_⟩
    · have hlt := Nat.lt_log2_self (n := n - 1)
      omega
    · have hlog : Nat.log2 (n - 1) < j := (Nat.log2_lt hne).2 (by omega)
      omega

theorem cellSize_spec (elemSize : ℕ) : ∃ e, cellSize elemSize = 2 ^ e ∧ 6 ≤ e := by
  obtain ⟨e, he, hle, -⟩ := roundupPowOfTwo_spec (max elemSize cacheLineSize)
  refine ⟨e, he, ?_⟩
  by_contra hlt
  have hpow : 2 ^ e ≤ 2 ^ 5 := Nat.pow_le_pow_right (by decide) (by omega)
  have hline : cacheLineSize ≤ max elemSize cacheLineSize := Nat.le_max_right ..
  unfold cacheLineSize at hline hle
  omega

/-! ### Queues that are laid out well -/

/-- The ring has `2 ^ k` cells, all of them inside the data area. -/
structure QueueOk (k : ℕ) (q : Queue) (b : QueueBuf α) : Prop where
  mask : q.indexMask = 2 ^ k - 1
  bufMask : b.indexMask = 2 ^ k - 1
  log2 : b.log2ElemSize = q.log2ElemSize
  cell : cellSize q.elemSize = 2 ^ q.log2ElemSize
  size : 2 ^ k * cellSize q.elemSize < 2 ^ 32
  cells : b.data.length = 2 ^ k
  producer : b.producerIndex < 2 ^ k
  consumer : b.consumerIndex < 2 ^ k

/-- The queue holds the elements `l`, oldest first. -/
structure Holds (k : ℕ) (b : QueueBuf α) (l : List α) : Prop where
  count : ahead (2 ^ k) b.producerIndex b.consumerIndex = l.length
  elems : window (b.data[·]?) (2 ^ k) b.consumerIndex l.length = l.map some

/-- The side uses the queue `q`. -/
def Side.Of (q : Queue) : Side → Prop
  | .kernel q' => q' = q
  | .librxe => True

section Ok

variable {k : ℕ} {q : Queue} {b : QueueBuf α} {l : List α} {side : Side}

theorem QueueOk.le (h : QueueOk k q b) : k ≤ 25 := by
  obtain ⟨e, he, hle⟩ := cellSize_spec q.elemSize
  have hsize := h.size
  rw [he, ← Nat.pow_add] at hsize
  have hlt : k + e < 32 := (Nat.pow_lt_pow_iff_right (by decide)).1 hsize
  omega

theorem indexDiff_eq {p c : ℕ} (hk : k ≤ 32) (hc : c < 2 ^ k) :
    indexDiff (2 ^ k - 1) p c = ahead (2 ^ k) p c := by
  -- the size of the ring divides 2 ^ 32, so the wrap of the subtraction is lost in the mask
  obtain ⟨m, hm⟩ : ∃ m, 2 ^ 32 = 2 ^ k * (m + 1) := by
    refine ⟨2 ^ (32 - k) - 1, ?_⟩
    have hpos := Nat.two_pow_pos (32 - k)
    rw [Nat.sub_add_cancel hpos, ← Nat.pow_add, Nat.add_sub_cancel' hk]
  rw [indexDiff, Nat.and_two_pow_sub_one_eq_mod, u32,
    Nat.mod_mod_of_dvd _ (Nat.pow_dvd_pow 2 hk), ahead, hm, Nat.mul_succ,
    show p + (2 ^ k * m + 2 ^ k) - c = p + 2 ^ k - c + 2 ^ k * m by omega,
    Nat.add_mul_mod_self_left]

theorem ringAddr_shift {i e : ℕ} (hi : i < 2 ^ k) : ringAddr (2 ^ k - 1) e i >>> e = i := by
  rw [ringAddr, Nat.and_two_pow_sub_one_eq_mod, Nat.mod_eq_of_lt hi, Nat.shiftLeft_shiftRight]

namespace QueueOk

variable (h : QueueOk k q b) (hside : side.Of q)

include h hside

theorem side_mask : side.mask b = 2 ^ k - 1 := by
  cases side with
  | kernel q' =>
    cases hside
    exact h.mask
  | librxe => exact h.bufMask

theorem side_log2 : side.log2 b = b.log2ElemSize := by
  cases side with
  | kernel q' =>
    cases hside
    exact h.log2.symm
  | librxe => rfl

theorem count_eq (hl : Holds k b l) : queueCount side b = l.length := by
  have hle := h.le
  rw [queueCount, ringCount, h.side_mask hside, indexDiff_eq (by omega) h.consumer, hl.count]

theorem empty_iff (hl : Holds k b l) : queueEmpty side b ↔ l = [] := by
  have hcount := h.count_eq hside hl
  rw [← List.length_eq_zero_iff, ← hcount]
  exact decide_eq_true_iff

theorem full_iff (hl : Holds k b l) : queueFull side b ↔ l.length = 2 ^ k - 1 := by
  have hle := h.le
  have hp := h.producer
  have hc := h.consumer
  have hpow : 2 ^ k ≤ 2 ^ 25 := Nat.pow_le_pow_right (by decide) hle
  have hlt : l.length < 2 ^ k := hl.count ▸ ahead_lt (Nat.two_pow_pos k)
  -- the producer index is masked, so its successor does not wrap
  have hnext : u32 (b.producerIndex + 1) = b.producerIndex + 1 := Nat.mod_eq_of_lt (by omega)
  have hfull : queueFull side b ↔ (l.length + 1) % 2 ^ k = 0 := by
    rw [queueFull, ringFull, h.side_mask hside, decide_eq_true_iff, hnext,
      indexDiff_eq (by omega) hc, ahead_succ (by omega), hl.count]
  rw [hfull]
  constructor
  · intro hzero
    by_contra hne
    rw [Nat.mod_eq_of_lt (by omega)] at hzero
    omega
  · intro heq
    rw [heq, Nat.sub_add_cancel (Nat.two_pow_pos k), Nat.mod_self]

theorem write_eq (x : α) :
    b.write (producerAddr side b) x = some { b with data := b.data.set b.producerIndex x } := by
  rw [QueueBuf.write, producerAddr, h.side_mask hside, h.side_log2 hside,
    ringAddr_shift h.producer, if_pos (h.cells ▸ h.producer)]

theorem read_eq : b.read (consumerAddr side b) = b.data[b.consumerIndex]? := by
  rw [QueueBuf.read, consumerAddr, h.side_mask hside, h.side_log2 hside, ringAddr_shift h.consumer]

theorem advanceProducer_eq :
    advanceProducer side b = { b with producerIndex := (b.producerIndex + 1) % 2 ^ k } := by
  have hle := h.le
  have hp := h.producer
  have hpow : 2 ^ k ≤ 2 ^ 25 := Nat.pow_le_pow_right (by decide) hle
  rw [advanceProducer, ringAdvanceProducer, h.side_mask hside, Nat.and_two_pow_sub_one_eq_mod,
    u32, Nat.mod_eq_of_lt (show b.producerIndex + 1 < 2 ^ 32 by omega)]

theorem advanceConsumer_eq :
    advanceConsumer side b = { b with consumerIndex := (b.consumerIndex + 1) % 2 ^ k } := by
  have hle := h.le
  have hc := h.consumer
  have hpow : 2 ^ k ≤ 2 ^ 25 := Nat.pow_le_pow_right (by decide) hle
  rw [advanceConsumer, ringAdvanceConsumer, h.side_mask hside, Nat.and_two_pow_sub_one_eq_mod,
    u32, Nat.mod_eq_of_lt (show b.consumerIndex + 1 < 2 ^ 32 by omega)]

end QueueOk

/-! ### What the operations do to the elements -/

theorem QueueOk.written (h : QueueOk k q b) (x : α) :
    QueueOk k q { b with data := b.data.set b.producerIndex x } :=
  { h with cells := List.length_set.trans h.cells }

theorem QueueOk.produced (h : QueueOk k q b) :
    QueueOk k q { b with producerIndex := (b.producerIndex + 1) % 2 ^ k } :=
  { h with producer := Nat.mod_lt _ (Nat.two_pow_pos k) }

theorem QueueOk.consumed (h : QueueOk k q b) :
    QueueOk k q { b with consumerIndex := (b.consumerIndex + 1) % 2 ^ k } :=
  { h with consumer := Nat.mod_lt _ (Nat.two_pow_pos k) }

theorem Holds.producer (hl : Holds k b l) (h : QueueOk k q b) :
    (b.consumerIndex + l.length) % 2 ^ k = b.producerIndex := by
  rw [← hl.count]
  exact add_ahead h.producer h.consumer

theorem Holds.length_lt (hl : Holds k b l) : l.length < 2 ^ k :=
  hl.count ▸ ahead_lt (Nat.two_pow_pos k)

theorem Holds.producer_ne (hl : Holds k b l) (h : QueueOk k q b) {j : ℕ} (hj : j < l.length) :
    (b.consumerIndex + j) % 2 ^ k ≠ b.producerIndex := by
  intro heq
  have hlt := hl.length_lt
  rw [← hl.producer h] at heq
  have := add_mod_inj (by omega) hlt heq
  omega

theorem Holds.written (hl : Holds k b l) (h : QueueOk k q b) (x : α) :
    Holds k { b with data := b.data.set b.producerIndex x } l where
  count := hl.count
  elems := by
    refine Eq.trans (window_congr fun j hj => ?_) hl.elems
    exact List.getElem?_set_ne (hl.producer_ne h hj).symm

theorem Holds.produced {x : α} (hl : Holds k b l) (h : QueueOk k q b)
    (hroom : l.length + 1 < 2 ^ k) (hx : b.data[b.producerIndex]? = some x) :
    Holds k { b with producerIndex := (b.producerIndex + 1) % 2 ^ k } (l ++ [x]) where
  count := by
    show ahead (2 ^ k) ((b.producerIndex + 1) % 2 ^ k) b.consumerIndex = _
    rw [List.length_append, List.length_singleton, ahead_eq_iff (Nat.mod_lt _ (Nat.two_pow_pos k))
      h.consumer hroom, ← hl.producer h, Nat.mod_add_mod, Nat.add_assoc]
  elems := by
    show window _ (2 ^ k) b.consumerIndex (l ++ [x]).length = _
    rw [List.length_append, List.length_singleton, window_succ, hl.producer h, hx, List.map_append,
      ← hl.elems]
    rfl

theorem Holds.head {x : α} (hl : Holds k b (x :: l)) (h : QueueOk k q b) :
    b.data[b.consumerIndex]? = some x := by
  have helems := hl.elems
  rw [List.length_cons, window_cons h.consumer, List.map_cons] at helems
  exact (List.cons.inj helems).1

theorem Holds.consumed {x : α} (hl : Holds k b (x :: l)) (h : QueueOk k q b) :
    Holds k { b with consumerIndex := (b.consumerIndex + 1) % 2 ^ k } l where
  count := by
    have hlt := hl.length_lt
    rw [List.length_cons] at hlt
    show ahead (2 ^ k) b.producerIndex ((b.consumerIndex + 1) % 2 ^ k) = _
    rw [ahead_eq_iff h.producer (Nat.mod_lt _ (Nat.two_pow_pos k)) (by omega), Nat.mod_add_mod,
      ← hl.producer h, List.length_cons, Nat.add_assoc, Nat.add_comm 1]
  elems := by
    have helems := hl.elems
    rw [List.length_cons, window_cons h.consumer, List.map_cons] at helems
    exact (List.cons.inj helems).2

end Ok

theorem newQueue_ok [Inhabited α] {numElem elemSize : ℕ} (buf : ℕ)
    (hfits : QueueFits numElem elemSize) :
    ∃ k, queueCapacity numElem = 2 ^ k - 1 ∧ numElem ≤ 2 ^ k - 1 ∧
      QueueOk k (newQueue buf numElem elemSize) (newQueueBuf (α := α) numElem elemSize) ∧
      Holds k (newQueueBuf (α := α) numElem elemSize) [] := by
  obtain ⟨k, hk, hle, -⟩ := roundupPowOfTwo_spec (numElem + 1)
  obtain ⟨e, he, hline⟩ := cellSize_spec elemSize
  have hsize : 2 ^ (k + e) < 2 ^ 32 := by
    rw [Nat.pow_add, ← hk, ← he]
    exact hfits
  have hlt : k + e < 32 := (Nat.pow_lt_pow_iff_right (by decide)).1 hsize
  have hkpow : 2 ^ k ≤ 2 ^ 25 := Nat.pow_le_pow_right (by decide) (by omega)
  have hepow : 2 ^ e < 2 ^ 32 := Nat.pow_lt_pow_right (by decide) (by omega)
  have hpos := Nat.two_pow_pos k
  -- nothing is cut off
  have hslots : queueSlots numElem = 2 ^ k := by
    unfold queueSlots u32
    rw [Nat.mod_eq_of_lt (show numElem + 1 < 2 ^ 32 by omega), hk]
    exact Nat.mod_eq_of_lt (by omega)
  have hcell : u32 (cellSize elemSize) = 2 ^ e := by
    rw [he]
    exact Nat.mod_eq_of_lt hepow
  have hcap : queueCapacity numElem = 2 ^ k - 1 := by
    unfold queueCapacity u32
    omega
  have hdata : queueDataSize numElem elemSize = 2 ^ k * 2 ^ e := by
    unfold queueDataSize
    rw [hslots, hcell, ← Nat.pow_add]
    exact Nat.mod_eq_of_lt hsize
  refine ⟨k, hcap, by omega, ⟨hcap, hcap, rfl, ?_, ?_, ?_, hpos, hpos⟩, ?_, rfl⟩
  · show cellSize elemSize = 2 ^ Nat.log2 (u32 (cellSize elemSize))
    rw [hcell, Nat.log2_two_pow, he]
  · show 2 ^ k * cellSize elemSize < 2 ^ 32
    rw [he, ← Nat.pow_add]
    exact hsize
  · show (List.replicate _ _).length = _
    rw [List.length_replicate, hdata, hcell, Nat.mul_div_cancel _ (Nat.two_pow_pos e)]
  · exact ahead_self

/-! ### The producer and the consumer -/

/-- Where the producer is: it has found room for an element, or has stored it as well. -/
inductive Producer (α : Type)
  | idle | clear (x : α) | stored (x : α)
  deriving DecidableEq, Repr

/-- Where the consumer is: it has found an element, or has read it as well. -/
inductive Consumer (α : Type)
  | idle | found | read (x : α)
  deriving DecidableEq, Repr

/-- The shared buffer, its users, and the elements that were put in and taken out. -/
structure QueueSys (α : Type) where
  buf : QueueBuf α
  producer : Producer α := .idle
  consumer : Consumer α := .idle
  inserted : List α := []
  removed : List α := []
  deriving DecidableEq, Repr

/-- The operations of which an insertion and a removal are made up. -/
inductive QueueOp (α : Type)
  | queueFull (x : α) | store | advanceProducer | queueEmpty | load | advanceConsumer
  deriving DecidableEq, Repr

/-- One operation, by the kernel or by librxe. -/
def queueStep (s : QueueSys α) : Side × QueueOp α → Option (QueueSys α)
  | (side, .queueFull x) =>
    match s.producer with
    | .idle => some (if queueFull side s.buf then s else { s with producer := .clear x })
    | _ => none
  | (side, .store) =>
    match s.producer with
    | .clear x =>
      (s.buf.write (producerAddr side s.buf) x).map fun buf =>
        { s with buf, producer := .stored x }
    | _ => none
  | (side, .advanceProducer) =>
    match s.producer with
    | .stored x => some { s with
        buf := advanceProducer side s.buf, producer := .idle, inserted := s.inserted ++ [x] }
    | _ => none
  | (side, .queueEmpty) =>
    match s.consumer with
    | .idle => some (if queueEmpty side s.buf then s else { s with consumer := .found })
    | _ => none
  | (side, .load) =>
    match s.consumer with
    | .found =>
      (s.buf.read (consumerAddr side s.buf)).map fun x => { s with consumer := .read x }
    | _ => none
  | (side, .advanceConsumer) =>
    match s.consumer with
    | .read x => some { s with
        buf := advanceConsumer side s.buf, consumer := .idle, removed := s.removed ++ [x] }
    | _ => none

/-- What the producer may rely on. -/
def ProducerOk (k : ℕ) (b : QueueBuf α) (l : List α) : Producer α → Prop
  | .idle => True
  | .clear _ => l.length + 1 < 2 ^ k
  | .stored x => l.length + 1 < 2 ^ k ∧ b.data[b.producerIndex]? = some x

/-- What the consumer may rely on. -/
def ConsumerOk (l : List α) : Consumer α → Prop
  | .idle => True
  | .found => l ≠ []
  | .read x => l.head? = some x

/-- The elements that were put in are those that were taken out and those that are still there. -/
structure QueueInv (k : ℕ) (q : Queue) (l : List α) (s : QueueSys α) : Prop where
  ok : QueueOk k q s.buf
  holds : Holds k s.buf l
  log : s.inserted = s.removed ++ l
  producer : ProducerOk k s.buf l s.producer
  consumer : ConsumerOk l s.consumer

theorem ProducerOk.consumed {k : ℕ} {b : QueueBuf α} {l : List α} {x : α} {pc : Producer α} (c : ℕ)
    (h : ProducerOk k b (x :: l) pc) : ProducerOk k { b with consumerIndex := c } l pc := by
  cases pc with
  | idle => trivial
  | clear y =>
    have hroom : l.length + 1 + 1 < 2 ^ k := h
    show l.length + 1 < 2 ^ k
    omega
  | stored y =>
    have hroom : l.length + 1 + 1 < 2 ^ k := h.1
    exact ⟨by omega, h.2⟩

theorem ConsumerOk.produced {l : List α} {pc : Consumer α} (x : α) (h : ConsumerOk l pc) :
    ConsumerOk (l ++ [x]) pc := by
  cases pc with
  | idle => trivial
  | found => exact List.append_ne_nil_of_left_ne_nil h [x]
  | read y =>
    have hhead : l.head? = some y := h
    show (l ++ [x]).head? = some y
    rw [List.head?_append, hhead]
    rfl

theorem QueueInv.step {k : ℕ} {q : Queue} {l : List α} {s s' : QueueSys α} {side : Side}
    {op : QueueOp α} (h : QueueInv k q l s) (hside : side.Of q)
    (hstep : queueStep s (side, op) = some s') : ∃ l', QueueInv k q l' s' := by
  obtain ⟨hok, hl, hlog, hprod, hcons⟩ := h
  unfold queueStep at hstep
  cases op with
  | queueFull x =>
    dsimp only at hstep
    split at hstep
    · cases hstep
      split
      · exact ⟨l, hok, hl, hlog, hprod, hcons⟩
      · next hfull =>
        rw [hok.full_iff hside hl] at hfull
        have hlt := hl.length_lt
        exact ⟨l, hok, hl, hlog, show l.length + 1 < 2 ^ k by omega, hcons⟩
    · cases hstep
  | store =>
    dsimp only at hstep
    split at hstep
    · next x hpc =>
      rw [hpc] at hprod
      rw [hok.write_eq hside x] at hstep
      cases hstep
      refine ⟨l, hok.written x, hl.written hok x, hlog, ⟨hprod, ?_⟩, hcons⟩
      exact List.getElem?_set_self (hok.cells ▸ hok.producer)
    · cases hstep
  | advanceProducer =>
    dsimp only at hstep
    split at hstep
    · next x hpc =>
      rw [hpc] at hprod
      rw [hok.advanceProducer_eq hside] at hstep
      cases hstep
      refine ⟨l ++ [x], hok.produced, hl.produced hok hprod.1 hprod.2, ?_, trivial,
        hcons.produced x⟩
      show s.inserted ++ [x] = s.removed ++ (l ++ [x])
      rw [hlog, List.append_assoc]
    · cases hstep
  | queueEmpty =>
    dsimp only at hstep
    split at hstep
    · cases hstep
      split
      · exact ⟨l, hok, hl, hlog, hprod, hcons⟩
      · next hempty =>
        rw [hok.empty_iff hside hl] at hempty
        exact ⟨l, hok, hl, hlog, hprod, hempty⟩
    · cases hstep
  | load =>
    dsimp only at hstep
    split at hstep
    · next hpc =>
      rw [hpc] at hcons
      obtain ⟨x, rest, rfl⟩ := List.exists_cons_of_ne_nil hcons
      rw [hok.read_eq hside, hl.head hok] at hstep
      cases hstep
      exact ⟨x :: rest, hok, hl, hlog, hprod, rfl⟩
    · cases hstep
  | advanceConsumer =>
    dsimp only at hstep
    split at hstep
    · next x hpc =>
      rw [hpc] at hcons
      obtain ⟨rest, rfl⟩ := List.head?_eq_some_iff.1 hcons
      rw [hok.advanceConsumer_eq hside] at hstep
      cases hstep
      refine ⟨rest, hok.consumed, hl.consumed hok, ?_, hprod.consumed _, trivial⟩
      show s.inserted = s.removed ++ [x] ++ rest
      rw [hlog, List.append_assoc]
      rfl
    · cases hstep

/-- Any interleaving of the two sides, from a new queue on. -/
theorem queue_inv [Inhabited α] {numElem elemSize buf : ℕ} {s : QueueSys α}
    (hfits : QueueFits numElem elemSize)
    (hreach : Reach queueStep (fun _ a => a.1.Of (newQueue buf numElem elemSize))
      { buf := newQueueBuf numElem elemSize } s) :
    ∃ k l, queueCapacity numElem = 2 ^ k - 1 ∧ numElem ≤ 2 ^ k - 1 ∧
      QueueInv k (newQueue buf numElem elemSize) l s := by
  obtain ⟨k, hcap, hle, hok, hnil⟩ := newQueue_ok (α := α) buf hfits
  have hinit : QueueInv k (newQueue buf numElem elemSize) []
      ({ buf := newQueueBuf numElem elemSize } : QueueSys α) :=
    ⟨hok, hnil, rfl, trivial, trivial⟩
  obtain ⟨l, hinv⟩ := Reach.inv (I := fun s => ∃ l, QueueInv k (newQueue buf numElem elemSize) l s)
    ⟨[], hinit⟩ (fun s a s' hs hside hstep => by
      obtain ⟨l, hl⟩ := hs
      exact hl.step hside hstep) hreach
  exact ⟨k, l, hcap, hle, hinv⟩

/-- The queue is a bounded FIFO, for every interleaving of a producer and a consumer: there are
`2 ^ k` cells and room for `2 ^ k - 1` elements; what was put in is what was taken out and the
elements `l` that are still there, in this order; both sides see their number; an element that
is read is the oldest; and the cell that is written is there and holds none of them. -/
theorem queue_fifo [Inhabited α] (numElem elemSize buf : ℕ) (s : QueueSys α)
    (hfits : QueueFits numElem elemSize)
    (hreach : Reach queueStep (fun _ a => a.1.Of (newQueue buf numElem elemSize))
      { buf := newQueueBuf numElem elemSize } s) :
    ∃ k l, queueCapacity numElem = 2 ^ k - 1 ∧ numElem ≤ 2 ^ k - 1 ∧ s.buf.data.length = 2 ^ k ∧
      s.inserted = s.removed ++ l ∧
      (∀ side, side.Of (newQueue buf numElem elemSize) → queueCount side s.buf = l.length ∧
        (queueEmpty side s.buf ↔ l.length = 0) ∧ (queueFull side s.buf ↔ l.length = 2 ^ k - 1)) ∧
      (∀ x, s.consumer = .read x → l.head? = some x) ∧
      (∀ x, s.producer = .clear x → ∀ side, side.Of (newQueue buf numElem elemSize) →
        (s.buf.write (producerAddr side s.buf) x).isSome ∧
          ∀ j y, l[j]? = some y → (s.buf.consumerIndex + j) % 2 ^ k ≠ s.buf.producerIndex ∧
            s.buf.data[(s.buf.consumerIndex + j) % 2 ^ k]? = some y) := by
  obtain ⟨k, l, hcap, hle, hinv⟩ := queue_inv hfits hreach
  obtain ⟨hok, hl, hlog, -, hcons⟩ := hinv
  refine ⟨k, l, hcap, hle, hok.cells, hlog, fun side hside => ⟨hok.count_eq hside hl, ?_,
    hok.full_iff hside hl⟩, ?_, ?_⟩
  · rw [List.length_eq_zero_iff]
    exact hok.empty_iff hside hl
  · intro x hpc
    rw [hpc] at hcons
    exact hcons
  · intro x hpc side hside
    refine ⟨by rw [hok.write_eq hside x]; rfl, fun j y hj => ?_⟩
    have hlt : j < l.length := (List.getElem?_eq_some_iff.1 hj).1
    refine ⟨hl.producer_ne hok hlt, ?_⟩
    have hcell : (l.map some)[j]? = some (some y) := by rw [List.getElem?_map, hj]; rfl
    rw [← hl.elems, window, List.getElem?_map, List.getElem?_range hlt] at hcell
    exact Option.some.inj hcell

/-- A process puts 7 and then 8 into a queue for three elements, and the kernel takes one out. -/
def twoInserted : List (Side × QueueOp ℕ) :=
  [(.librxe, .queueFull 7), (.librxe, .store), (.kernel (newQueue 0 3 8), .queueEmpty),
    (.librxe, .advanceProducer), (.librxe, .queueFull 8), (.kernel (newQueue 0 3 8), .queueEmpty),
    (.librxe, .store), (.kernel (newQueue 0 3 8), .load), (.librxe, .advanceProducer),
    (.kernel (newQueue 0 3 8), .advanceConsumer)]

theorem twoInserted_reach : ∃ s : QueueSys ℕ,
    twoInserted.foldlM queueStep { buf := newQueueBuf 3 8 } = some s ∧
      s.removed = [7] ∧ s.inserted = [7, 8] ∧
      Reach queueStep (fun _ a => a.1.Of (newQueue 0 3 8)) { buf := newQueueBuf 3 8 } s := by
  have hrun : (twoInserted.foldlM queueStep { buf := newQueueBuf 3 8 }).map
      (fun s => (s.removed, s.inserted)) = some ([7], [7, 8]) := by decide +kernel
  obtain ⟨s, hs, hlogs⟩ := Option.map_eq_some_iff.1 hrun
  obtain ⟨hremoved, hinserted⟩ := Prod.mk.inj hlogs
  refine ⟨s, hs, hremoved, hinserted, Reach.start.foldlM twoInserted (fun _ a ha => ?_) hs⟩
  simp only [twoInserted, List.mem_cons, List.not_mem_nil, or_false] at ha
  rcases ha with rfl | rfl | rfl | rfl | rfl | rfl | rfl | rfl | rfl | rfl <;>
    first | rfl | trivial

theorem queue_fifo_two :
    ∃ s : QueueSys ℕ, twoInserted.foldlM queueStep { buf := newQueueBuf 3 8 } = some s ∧
      s.removed = [7] ∧ s.inserted = [7, 8] ∧ queueCount .librxe s.buf = 1 := by
  obtain ⟨s, hs, hremoved, hinserted, hreach⟩ := twoInserted_reach
  obtain ⟨k, l, -, -, -, hlog, hsides, -⟩ := queue_fifo 3 8 0 s (by decide +kernel) hreach
  have hlen : l = [8] := by
    rw [hremoved, hinserted] at hlog
    exact (List.cons.inj hlog).2.symm
  refine ⟨s, hs, hremoved, hinserted, ?_⟩
  rw [(hsides .librxe trivial).1, hlen]
  rfl

end Rxe
