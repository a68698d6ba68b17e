/-
Pools of managed objects with an index (`rxe_pool.c`).

An object has a reference count and, while it is indexed, a bit in the table of the pool and a
node in its tree.  The steps are the sections under `pool_lock` and the atomic operations; a
call of `rxe_alloc` or `rxe_elem_release` that is under way is counted by how far it has come,
since it holds nothing else.

* `rxeAddIndex`, `rxeDropIndex`, `rxePoolGetIndex` — the sections under the lock;
* `poolStep` — the steps of any number of concurrent calls;
* `PoolInv` — the table, the tree and the counters agree on the objects of the pool;
* `pool_index_managed` — the pool hands out at most `max_elem` objects with distinct indices
  from its range, and a lookup finds exactly the object with the index.
-/
import Mathlib.Data.Finset.Card
import Mathlib.Data.Finset.Range
import Rxe.SearchTree
import Rxe.Trace

namespace Rxe

open SearchTree

/-- `enum rxe_elem_type` -/
inductive RxeElemType
  | uc | pd | ah | srq | qp | cq | mr | mw | fmr | mcGrp | mcElem
  deriving DecidableEq, Repr

/-- `min_index` and `max_index` of the types with the flag `RXE_POOL_INDEX`. -/
def indexRange : RxeElemType → Option (ℕ × ℕ)
  | .srq => some (0x20001, 0x40000)
  | .qp => some (16, 0x20000)
  | .mr => some (1, 0x20000)
  | .fmr => some (0x20001, 0x40000)
  | .mw => some (0x40001, 0x60000)
  | .uc | .pd | .ah | .cq | .mcGrp | .mcElem => none

/-- Whether an object has been given an index, and whether it has lost it again.  The driver
does not record this; its callers give an object at most one index. -/
inductive IndexPhase
  | fresh | indexed | dropped
  deriving DecidableEq, Repr

/-- An object of a pool: `struct rxe_pool_entry` and what it is part of. -/
structure Elem (α : Type) where
  refCnt : ℕ := 1
  index : ℕ := 0
  phase : IndexPhase := .fresh
  obj : α

/-- `enum rxe_pool_state` -/
inductive PoolState
  | invalid | valid
  deriving DecidableEq, Repr

/-- `struct rxe_pool`, with the objects allocated from its cache, and the calls under way. -/
structure Pool (α : Type) where
  maxElem : ℕ
  minIndex : ℕ
  maxIndex : ℕ
  state : PoolState := .valid
  refCnt : ℕ := 1
  numElem : ℕ := 0
  tree : BinaryTree ℕ := .nil
  table : ℕ → Bool := fun _ => false
  last : ℕ := 0
  -- the addresses allocated from the cache, and what is stored there
  slab : Finset ℕ := ∅
  elem : ℕ → Option (Elem α) := fun _ => none
  -- calls of `rxe_alloc`: not counted yet, counted and within the limit, counted and over it
  entered : ℕ := 0
  granted : ℕ := 0
  refused : ℕ := 0
  -- calls that have freed an object and not lowered `num_elem`, calls about to drop the pool
  freed : ℕ := 0
  leaving : ℕ := 0

namespace Pool

variable {α : Type}

/-- The number of bits in the table, `max_index - min_index + 1`. -/
def range (p : Pool α) : ℕ := p.maxIndex - p.minIndex + 1

/-- `elem->index` of the object at an address. -/
def indexAt (p : Pool α) (e : ℕ) : ℕ := (p.elem e).elim 0 Elem.index

/-- Change the object at an address. -/
def setElem (p : Pool α) (e : ℕ) (f : Elem α → Elem α) : Pool α :=
  { p with elem := Function.update p.elem e ((p.elem e).map f) }

end Pool

section Operations

variable {α : Type}

/-- `rxe_pool_init` for an indexed type; `none` where it fails. -/
def rxePoolInit (α : Type) (type : RxeElemType) (maxElem : ℕ) : Option (Pool α) :=
  match indexRange type with
  | none => none
  | some (min, max) =>
    if max - min + 1 < maxElem then none else some { maxElem, minIndex := min, maxIndex := max }

/-- `find_next_zero_bit`: the first clear bit from `start` on, `size` if there is none. -/
def findNextZeroBit (table : ℕ → Bool) (size start : ℕ) : ℕ :=
  ((List.range' start (size - start)).find? (!table ·)).getD size

/-- The bit that `alloc_index` chooses. -/
def chooseBit (p : Pool α) : ℕ :=
  let index := findNextZeroBit p.table p.range p.last
  if p.range ≤ index then findNextZeroBit p.table p.range 0 else index

/-- `alloc_index` -/
def allocIndex (p : Pool α) : ℕ × Pool α :=
  let index := chooseBit p
  (index + p.minIndex, { p with table := Function.update p.table index true, last := index })

/-- `insert_index`; `rot` is what `rb_insert_color` does to the tree. -/
def insertIndex (rot : BinaryTree ℕ → BinaryTree ℕ) (p : Pool α) (e : ℕ) : Pool α :=
  { p with tree := rot (link p.indexAt e p.tree) }

/-- `rxe_add_index` -/
def rxeAddIndex (rot : BinaryTree ℕ → BinaryTree ℕ) (p : Pool α) (e : ℕ) : Pool α :=
  match allocIndex p with
  | (index, p) =>
    insertIndex rot (p.setElem e fun x => { x with index, phase := .indexed }) e

/-- `rxe_drop_index`; `rot` is what `rb_erase` does to the shape of the tree. -/
def rxeDropIndex (rot : BinaryTree ℕ → BinaryTree ℕ) (p : Pool α) (e : ℕ) : Pool α :=
  { p with
    table := Function.update p.table (p.indexAt e - p.minIndex) false
    tree := rot (erase e p.tree) }.setElem e fun x => { x with phase := .dropped }

/-- `rxe_add_ref` -/
def rxeAddRef (p : Pool α) (e : ℕ) : Pool α :=
  p.setElem e fun x => { x with refCnt := x.refCnt + 1 }

/-- The decrement of `rxe_drop_ref`; at zero `rxe_elem_release` is to follow. -/
def rxeDropRef (p : Pool α) (e : ℕ) : Pool α :=
  p.setElem e fun x => { x with refCnt := x.refCnt - 1 }

/-- `rxe_pool_get_index` -/
def rxePoolGetIndex (p : Pool α) (index : ℕ) : Option ℕ × Pool α :=
  if p.state ≠ .valid then (none, p)
  else
    match find p.indexAt index p.tree with
    | none => (none, p)
    | some e => (some e, rxeAddRef p e)

/-- `kref_put(&pool->ref_cnt, rxe_pool_release)` -/
def poolPut (p : Pool α) : Pool α :=
  { p with refCnt := p.refCnt - 1, state := if p.refCnt = 1 then .invalid else p.state }

/-- A call of `rxe_alloc` as a whole, with the address that the cache has for it.  Without one
the call fails; the driver does not look whether `kmem_cache_zalloc` has failed. -/
def rxeAlloc (p : Pool α) (addr : Option ℕ) (zero : α) : Option ℕ × Pool α :=
  if p.state ≠ .valid ∨ p.maxElem < p.numElem + 1 then (none, p)
  else
    match addr with
    | none => (none, p)
    | some e =>
      (some e, { p with refCnt := p.refCnt + 1, numElem := p.numElem + 1, slab := insert e p.slab
                        elem := Function.update p.elem e (some { obj := zero }) })

/-- `rxe_elem_release` as a whole, after the cleanup of the object. -/
def rxeElemRelease (p : Pool α) (e : ℕ) : Pool α :=
  poolPut { p with slab := p.slab.erase e, elem := Function.update p.elem e none
                   numElem := p.numElem - 1 }

/-- `rxe_drop_ref` as a whole. -/
def krefPut (cleanup : Pool α → Pool α) (p : Pool α) (e : ℕ) : Pool α :=
  let p := rxeDropRef p e
  if (p.elem e).any (·.refCnt = 0) then rxeElemRelease (cleanup p) e else p

end Operations

/-- A step of one of the calls on a pool. -/
inductive PoolAct (α : Type)
  /-- `rxe_alloc` finds the pool valid and takes a reference to it. -/
  | enter
  /-- `atomic_inc_return(&pool->num_elem)` and the test against `max_elem` -/
  | count
  /-- `atomic_dec(&pool->num_elem)` of a call over the limit -/
  | uncount
  /-- `kmem_cache_zalloc` returns a zeroed object at an address. -/
  | zalloc (e : ℕ) (zero : α)
  | addIndex (e : ℕ) (rot : BinaryTree ℕ → BinaryTree ℕ)
  | dropIndex (e : ℕ) (rot : BinaryTree ℕ → BinaryTree ℕ)
  | getIndex (index : ℕ)
  | addRef (e : ℕ)
  | dropRef (e : ℕ)
  /-- The owner of an object changes it. -/
  | write (e : ℕ) (f : α → α)
  /-- `rxe_elem_release` up to `kmem_cache_free`. -/
  | free (e : ℕ)
  /-- `atomic_dec(&pool->num_elem)` of a release -/
  | discount
  /-- the last step of a release, or of a call over the limit -/
  | put

section Steps

variable {α : Type}

def poolStep (p : Pool α) : PoolAct α → Option (Pool α)
  | .enter =>
    if p.state = .valid then some { p with refCnt := p.refCnt + 1, entered := p.entered + 1 }
    else some p
  | .count =>
    if p.entered = 0 then none
    else if p.maxElem < p.numElem + 1 then
      some { p with numElem := p.numElem + 1, entered := p.entered - 1, refused := p.refused + 1 }
    else
      some { p with numElem := p.numElem + 1, entered := p.entered - 1, granted := p.granted + 1 }
  | .uncount =>
    if p.refused = 0 then none
    else
      some { p with numElem := p.numElem - 1, refused := p.refused - 1, leaving := p.leaving + 1 }
  | .zalloc e zero =>
    if p.granted = 0 ∨ e ∈ p.slab then none
    else
      some { p with granted := p.granted - 1, slab := insert e p.slab
                    elem := Function.update p.elem e (some { obj := zero }) }
  | .addIndex e rot => some (rxeAddIndex rot p e)
  | .dropIndex e rot => some (rxeDropIndex rot p e)
  | .getIndex index => some (rxePoolGetIndex p index).2
  | .addRef e => some (rxeAddRef p e)
  | .dropRef e => some (rxeDropRef p e)
  | .write e f => some (p.setElem e fun x => { x with obj := f x.obj })
  | .free e =>
    match p.elem e with
    | none => none
    | some x =>
      if x.refCnt = 0 then
        some { p with slab := p.slab.erase e, elem := Function.update p.elem e none
                      freed := p.freed + 1 }
      else none
  | .discount =>
    if p.freed = 0 then none
    else some { p with numElem := p.numElem - 1, freed := p.freed - 1, leaving := p.leaving + 1 }
  | .put => if p.leaving = 0 then none else some { poolPut p with leaving := p.leaving - 1 }

/-- How the pool is used: an object is used by those that hold a reference to it, gets at most
one index and loses it before its last reference is dropped; the tree is rebalanced somehow. -/
def PoolOk (p : Pool α) : PoolAct α → Prop
  | .addIndex e rot => (∃ x, p.elem e = some x ∧ 0 < x.refCnt ∧ x.phase = .fresh) ∧ Rebalances rot
  | .dropIndex e rot =>
    (∃ x, p.elem e = some x ∧ 0 < x.refCnt ∧ x.phase = .indexed) ∧ Rebalances rot
  | .addRef e => ∃ x, p.elem e = some x ∧ 0 < x.refCnt
  | .dropRef e => ∃ x, p.elem e = some x ∧ 0 < x.refCnt ∧ (x.refCnt = 1 → x.phase ≠ .indexed)
  | _ => True

/-- The object at an address is indexed. -/
def Pool.Indexed (p : Pool α) (e : ℕ) : Prop := ∃ x, p.elem e = some x ∧ x.phase = .indexed

/-- The counters of a pool, its table and its tree agree on its objects. -/
structure PoolInv (p : Pool α) : Prop where
  valid : p.state = .valid
  /-- every object and every call holds a reference to the pool -/
  refs : p.refCnt = 1 + p.entered + p.granted + p.refused + p.freed + p.leaving + p.slab.card
  counted : p.numElem = p.granted + p.refused + p.freed + p.slab.card
  limit : p.granted + p.slab.card ≤ p.maxElem
  room : p.maxElem ≤ p.range
  bounds : p.minIndex ≤ p.maxIndex
  slab : ∀ e, e ∈ p.slab ↔ (p.elem e).isSome
  tree : ∀ e, e ∈ inorder p.tree ↔ p.Indexed e
  sorted : Sorted p.indexAt p.tree
  inRange : ∀ e x, p.elem e = some x → x.phase = .indexed →
    p.minIndex ≤ x.index ∧ x.index ≤ p.maxIndex
  bits : ∀ i < p.range, p.table i ↔ ∃ e, p.Indexed e ∧ p.indexAt e = i + p.minIndex
  held : ∀ e x, p.elem e = some x → x.phase = .indexed → 0 < x.refCnt

theorem rxePoolInit_eq {type : RxeElemType} {maxElem : ℕ} {p : Pool α}
    (h : rxePoolInit α type maxElem = some p) :
    ∃ min max, indexRange type = some (min, max) ∧ maxElem ≤ max - min + 1 ∧
      p = { maxElem, minIndex := min, maxIndex := max } := by
  unfold rxePoolInit at h
  split at h
  · cases h
  · next min max hrange =>
    split at h
    · cases h
    · next hroom =>
      cases h
      exact ⟨min, max, hrange, not_lt.1 hroom, rfl⟩

theorem rxePoolInit_inv {type : RxeElemType} {maxElem : ℕ} {p : Pool α}
    (h : rxePoolInit α type maxElem = some p) : PoolInv p ∧ p.maxElem = maxElem := by
  obtain ⟨min, max, hrange, hroom, rfl⟩ := rxePoolInit_eq h
  have hbounds : min ≤ max := by
    cases type <;> cases hrange <;> decide
  refine ⟨⟨rfl, rfl, rfl, Nat.zero_le _, hroom, hbounds, ?_, ?_, sorted_nil, ?_, ?_, ?_⟩, rfl⟩
  · simp
  · simp [inorder, Pool.Indexed]
  · simp
  · simp [Pool.Indexed]
  · simp

/-! ### Changes to one object -/

section SetElem

variable {p : Pool α} {e e' : ℕ} {f : Elem α → Elem α}

theorem setElem_same : (p.setElem e f).elem e = (p.elem e).map f := Function.update_self ..

theorem setElem_self {x : Elem α} (hx : p.elem e = some x) :
    (p.setElem e f).elem e = some (f x) := by
  rw [setElem_same, hx]
  rfl

theorem setElem_of_ne (h : e' ≠ e) : (p.setElem e f).elem e' = p.elem e' :=
  Function.update_of_ne h ..

theorem setElem_isSome : ((p.setElem e f).elem e').isSome = (p.elem e').isSome := by
  by_cases h : e' = e
  · rw [h, setElem_same, Option.isSome_map]
  · rw [setElem_of_ne h]

theorem setElem_setElem (p : Pool α) (e : ℕ) (f g : Elem α → Elem α) :
    (p.setElem e f).setElem e g = p.setElem e (g ∘ f) := by
  unfold Pool.setElem
  dsimp only
  rw [Function.update_idem, Function.update_self, Option.map_map]

theorem setElem_cases {y : Elem α} (h : (p.setElem e f).elem e' = some y) :
    (e' = e ∧ ∃ x, p.elem e = some x ∧ y = f x) ∨ (e' ≠ e ∧ p.elem e' = some y) := by
  by_cases he : e' = e
  · rw [he, setElem_same] at h
    obtain ⟨x, hx, rfl⟩ := Option.map_eq_some_iff.1 h
    exact Or.inl ⟨he, x, hx, rfl⟩
  · rw [setElem_of_ne he] at h
    exact Or.inr ⟨he, h⟩

theorem setElem_elim {β : Type} {d : β} {φ : Elem α → β} (hf : ∀ x, φ (f x) = φ x) :
    ((p.setElem e f).elem e').elim d φ = (p.elem e').elim d φ := by
  by_cases h : e' = e
  · rw [h, setElem_same]
    cases p.elem e with
    | none => rfl
    | some x => exact hf x
  · rw [setElem_of_ne h]

theorem setElem_indexAt (hf : ∀ x, (f x).index = x.index) :
    (p.setElem e f).indexAt = p.indexAt :=
  funext fun _ => setElem_elim hf

/-! Two pools that differ in the object at `e` at most. -/

variable {p' : Pool α} {z : Elem α}

theorem elem_cases (hother : ∀ e' ≠ e, p'.elem e' = p.elem e') (hz : p'.elem e' = some z) :
    (e' = e ∧ p'.elem e = some z) ∨ (e' ≠ e ∧ p.elem e' = some z) := by
  by_cases he : e' = e
  · exact Or.inl ⟨he, he ▸ hz⟩
  · exact Or.inr ⟨he, (hother e' he).symm.trans hz⟩

theorem indexAt_of_ne (hother : ∀ e' ≠ e, p'.elem e' = p.elem e') (hne : e' ≠ e) :
    p'.indexAt e' = p.indexAt e' := by
  unfold Pool.indexAt
  rw [hother e' hne]

theorem indexed_of_ne (hother : ∀ e' ≠ e, p'.elem e' = p.elem e') (hne : e' ≠ e) :
    p'.Indexed e' ↔ p.Indexed e' := by
  unfold Pool.Indexed
  rw [hother e' hne]

theorem ne_of_indexed {x : Elem α} (hx : p.elem e = some x) (hno : x.phase ≠ .indexed)
    (hin : p.Indexed e') : e' ≠ e := by
  rintro rfl
  obtain ⟨y, hy, hphase⟩ := hin
  cases hx.symm.trans hy
  exact hno hphase

theorem setElem_indexed (hf : ∀ x, (f x).phase = x.phase) :
    (p.setElem e f).Indexed e' ↔ p.Indexed e' := by
  unfold Pool.Indexed
  by_cases h : e' = e
  · rw [h, setElem_same]
    cases p.elem e with
    | none => simp
    | some x => simp [hf x]
  · rw [setElem_of_ne h]

theorem PoolInv.setElem (h : PoolInv p) (hindex : ∀ x, (f x).index = x.index)
    (hphase : ∀ x, (f x).phase = x.phase)
    (hheld : ∀ x, p.elem e = some x → x.phase = .indexed → 0 < (f x).refCnt) :
    PoolInv (p.setElem e f) where
  valid := h.valid
  refs := h.refs
  counted := h.counted
  limit := h.limit
  room := h.room
  bounds := h.bounds
  slab e' := by
    rw [setElem_isSome]
    exact h.slab e'
  tree e' := (h.tree e').trans (setElem_indexed hphase).symm
  sorted := by
    rw [setElem_indexAt hindex]
    exact h.sorted
  inRange e' y hy hphase' := by
    rcases setElem_cases hy with ⟨-, x, hx, rfl⟩ | ⟨-, hx⟩
    · rw [hindex]
      exact h.inRange _ x hx ((hphase x).symm.trans hphase')
    · exact h.inRange e' y hx hphase'
  bits i hi := by
    rw [setElem_indexAt hindex]
    exact (h.bits i hi).trans
      (exists_congr fun e' => and_congr_left' (setElem_indexed hphase).symm)
  held e' y hy hphase' := by
    rcases setElem_cases hy with ⟨-, x, hx, rfl⟩ | ⟨-, hx⟩
    · exact hheld x hx ((hphase x).symm.trans hphase')
    · exact h.held e' y hx hphase'

end SetElem

/-! ### The search for a clear bit -/

theorem findNextZeroBit_cases (table : ℕ → Bool) (size start : ℕ) :
    (start ≤ findNextZeroBit table size start ∧ findNextZeroBit table size start < size ∧
        table (findNextZeroBit table size start) = false) ∨
      findNextZeroBit table size start = size ∧ ∀ i, start ≤ i → i < size → table i := by
  unfold findNextZeroBit
  cases hfind : (List.range' start (size - start)).find? (!table ·) with
  | some i =>
    left
    have hmem := List.mem_range'_1.1 (List.mem_of_find?_eq_some hfind)
    have hbit := List.find?_some hfind
    refine ⟨hmem.1, show i < size by omega, by simpa using hbit⟩
  | none =>
    right
    refine ⟨rfl, fun i hlo hhi => ?_⟩
    have hall := List.find?_eq_none.1 hfind i (List.mem_range'_1.2 ⟨hlo, by omega⟩)
    simpa using hall

/-- If there is a clear bit, `alloc_index` chooses one. -/
theorem chooseBit_spec {p : Pool α} (h : ∃ i < p.range, p.table i = false) :
    chooseBit p < p.range ∧ p.table (chooseBit p) = false := by
  unfold chooseBit
  rcases findNextZeroBit_cases p.table p.range p.last with ⟨-, hlt, hbit⟩ | ⟨hfull, -⟩
  · rw [if_neg (not_le.2 hlt)]
    exact ⟨hlt, hbit⟩
  · rw [hfull, if_pos le_rfl]
    rcases findNextZeroBit_cases p.table p.range 0 with ⟨-, hlt, hbit⟩ | ⟨-, hall⟩
    · exact ⟨hlt, hbit⟩
    · obtain ⟨i, hi, hclear⟩ := h
      rw [hall i (Nat.zero_le i) hi] at hclear
      cases hclear

theorem PoolInv.clear {p : Pool α} (h : PoolInv p) {e : ℕ} {x : Elem α} (hx : p.elem e = some x)
    (hno : x.phase ≠ .indexed) : ∃ i < p.range, p.table i = false := by
  by_contra hfull
  have hset : ∀ i < p.range, p.table i = true := by
    intro i hi
    by_contra hclear
    exact hfull ⟨i, hi, by simpa using hclear⟩
  have hin : e ∈ p.slab := (h.slab e).2 (by rw [hx]; rfl)
  -- if all bits were set, the other objects would have all the indices
  have hsub : Finset.range p.range ⊆
      (p.slab.erase e).image fun e' => p.indexAt e' - p.minIndex := by
    intro i hi
    obtain ⟨e', hindexed, hindex⟩ := (h.bits i (Finset.mem_range.1 hi)).1
      (hset i (Finset.mem_range.1 hi))
    have hne := ne_of_indexed hx hno hindexed
    have hslab : e' ∈ p.slab := by
      obtain ⟨y, hy, -⟩ := hindexed
      exact (h.slab e').2 (by rw [hy]; rfl)
    exact Finset.mem_image.2 ⟨e', Finset.mem_erase.2 ⟨hne, hslab⟩, by rw [hindex]; omega⟩
  have hcard : p.range ≤ p.slab.card - 1 := by
    calc p.range = (Finset.range p.range).card := (Finset.card_range _).symm
      _ ≤ _ := Finset.card_le_card hsub
      _ ≤ (p.slab.erase e).card := Finset.card_image_le
      _ = p.slab.card - 1 := Finset.card_erase_of_mem hin
  have hpos : 0 < p.slab.card := Finset.card_pos.2 ⟨e, hin⟩
  have hlimit := h.limit
  have hroom := h.room
  omega

/-! ### The sections under the lock -/

section Index

variable {p : Pool α} {e : ℕ} {x : Elem α} {rot : BinaryTree ℕ → BinaryTree ℕ}

theorem rxeAddIndex_elem (rot : BinaryTree ℕ → BinaryTree ℕ) (hx : p.elem e = some x) :
    (rxeAddIndex rot p e).elem = Function.update p.elem e
      (some { x with index := chooseBit p + p.minIndex, phase := .indexed }) := by
  show Function.update p.elem e ((p.elem e).map _) = _
  rw [hx]
  rfl

theorem indexAt_of_elem (hx : p.elem e = some x) : p.indexAt e = x.index := by
  unfold Pool.indexAt
  rw [hx]
  rfl

theorem PoolInv.addIndex (h : PoolInv p) (hx : p.elem e = some x) (hheld : 0 < x.refCnt)
    (hfresh : x.phase = .fresh) (hrot : Rebalances rot) : PoolInv (rxeAddIndex rot p e) := by
  obtain ⟨hlt, hclear⟩ := chooseBit_spec (h.clear hx (by rw [hfresh]; decide))
  set y : Elem α := { x with index := chooseBit p + p.minIndex, phase := .indexed } with hy
  have helem : (rxeAddIndex rot p e).elem = Function.update p.elem e (some y) :=
    rxeAddIndex_elem rot hx
  have hsame : (rxeAddIndex rot p e).elem e = some y := by
    rw [helem]
    exact Function.update_self ..
  have hother : ∀ e' ≠ e, (rxeAddIndex rot p e).elem e' = p.elem e' := by
    intro e' hne
    exact Function.update_of_ne hne ..
  have hnot : ∀ e', p.Indexed e' → e' ≠ e := fun _ => ne_of_indexed hx (by rw [hfresh]; decide)
  have hindexed : ∀ e', (rxeAddIndex rot p e).Indexed e' ↔ e' = e ∨ p.Indexed e' := by
    intro e'
    by_cases he : e' = e
    · exact ⟨fun _ => Or.inl he, fun _ => ⟨y, he ▸ hsame, rfl⟩⟩
    · rw [indexed_of_ne hother he]
      exact ⟨Or.inr, fun hor => hor.resolve_left he⟩
  have hat : (rxeAddIndex rot p e).indexAt e = chooseBit p + p.minIndex := indexAt_of_elem hsame
  have hatOther : ∀ e' ≠ e, (rxeAddIndex rot p e).indexAt e' = p.indexAt e' := fun _ =>
    indexAt_of_ne hother
  -- no node of the tree has the new index: its bit was clear
  have hne : ∀ e' ∈ inorder p.tree, e' ≠ e := fun e' hmem => hnot e' ((h.tree e').1 hmem)
  have hnew : ∀ e' ∈ inorder p.tree,
      (rxeAddIndex rot p e).indexAt e' ≠ (rxeAddIndex rot p e).indexAt e := by
    intro e' hmem heq
    rw [hatOther e' (hne e' hmem), hat] at heq
    rw [(h.bits (chooseBit p) hlt).2 ⟨e', (h.tree e').1 hmem, heq⟩] at hclear
    cases hclear
  have hsorted : Sorted (rxeAddIndex rot p e).indexAt p.tree :=
    h.sorted.congr fun e' hmem => hatOther e' (hne e' hmem)
  have hkey : (p.setElem e fun x =>
      { x with index := chooseBit p + p.minIndex, phase := .indexed }).indexAt =
      (rxeAddIndex rot p e).indexAt := rfl
  have htree : (rxeAddIndex rot p e).tree = rot (link (rxeAddIndex rot p e).indexAt e p.tree) := rfl
  refine ⟨h.valid, h.refs, h.counted, h.limit, h.room, h.bounds, ?_, ?_, ?_, ?_, ?_, ?_⟩
  · intro e'
    rw [show ((rxeAddIndex rot p e).elem e').isSome = (p.elem e').isSome from setElem_isSome]
    exact h.slab e'
  · intro e'
    rw [htree, hrot, mem_link hnew, hindexed, h.tree]
  · rw [htree]
    exact (link_sorted hsorted hnew).rebalance hrot
  · intro e' z hz hphase
    rcases elem_cases hother hz with ⟨-, hz⟩ | ⟨-, hz⟩
    · cases hsame.symm.trans hz
      have hbounds := h.bounds
      unfold Pool.range at hlt
      exact ⟨Nat.le_add_left .., show chooseBit p + p.minIndex ≤ p.maxIndex by omega⟩
    · exact h.inRange e' z hz hphase
  · intro i hi
    show Function.update p.table (chooseBit p) true i = true ↔ _
    by_cases hb : i = chooseBit p
    · subst hb
      rw [Function.update_self]
      exact ⟨fun _ => ⟨e, (hindexed e).2 (Or.inl rfl), hat⟩, fun _ => rfl⟩
    · rw [Function.update_of_ne hb, h.bits i hi]
      constructor
      · rintro ⟨e', hin, heq⟩
        exact ⟨e', (hindexed e').2 (Or.inr hin), (hatOther e' (hnot e' hin)).trans heq⟩
      · rintro ⟨e', hin, heq⟩
        have he : e' ≠ e := by
          rintro rfl
          exact hb (Nat.add_right_cancel (hat.symm.trans heq)).symm
        exact ⟨e', ((hindexed e').1 hin).resolve_left he, (hatOther e' he).symm.trans heq⟩
  · intro e' z hz hphase
    rcases elem_cases hother hz with ⟨-, hz⟩ | ⟨-, hz⟩
    · cases hsame.symm.trans hz
      exact hheld
    · exact h.held e' z hz hphase

theorem PoolInv.index_inj (h : PoolInv p) {e' : ℕ} (he : p.Indexed e) (he' : p.Indexed e')
    (heq : p.indexAt e = p.indexAt e') : e = e' :=
  h.sorted.key_inj ((h.tree e).2 he) ((h.tree e').2 he') heq

theorem PoolInv.dropIndex (h : PoolInv p) (hx : p.elem e = some x) (hphase : x.phase = .indexed)
    (hrot : Rebalances rot) : PoolInv (rxeDropIndex rot p e) := by
  have hin : p.Indexed e := ⟨x, hx, hphase⟩
  have hsame : (rxeDropIndex rot p e).elem e = some { x with phase := .dropped } := setElem_self hx
  have hother : ∀ e' ≠ e, (rxeDropIndex rot p e).elem e' = p.elem e' := fun e' hne =>
    Function.update_of_ne hne ..
  have hindexed : ∀ e', (rxeDropIndex rot p e).Indexed e' ↔ e' ≠ e ∧ p.Indexed e' := by
    intro e'
    by_cases he : e' = e
    · refine ⟨fun hin => absurd he (ne_of_indexed hsame nofun hin), fun hand => absurd he hand.1⟩
    · rw [indexed_of_ne hother he]
      exact ⟨fun hex => ⟨he, hex⟩, fun hand => hand.2⟩
  have hat : (rxeDropIndex rot p e).indexAt = p.indexAt :=
    setElem_indexAt (p := { p with
      table := Function.update p.table (p.indexAt e - p.minIndex) false
      tree := rot (erase e p.tree) }) fun _ => rfl
  have htree : (rxeDropIndex rot p e).tree = rot (erase e p.tree) := rfl
  have hindex : p.indexAt e = x.index := indexAt_of_elem hx
  have hrange := h.inRange e x hx hphase
  refine ⟨h.valid, h.refs, h.counted, h.limit, h.room, h.bounds, ?_, ?_, ?_, ?_, ?_, ?_⟩
  · intro e'
    rw [show ((rxeDropIndex rot p e).elem e').isSome = (p.elem e').isSome from setElem_isSome]
    exact h.slab e'
  · intro e'
    rw [htree, hrot, mem_erase h.sorted, hindexed, h.tree]
  · rw [hat, htree]
    exact (erase_sorted e h.sorted).rebalance hrot
  · intro e' z hz hz'
    obtain ⟨hne, -⟩ := (hindexed e').1 ⟨z, hz, hz'⟩
    rw [hother e' hne] at hz
    exact h.inRange e' z hz hz'
  · intro i hi
    show Function.update p.table (p.indexAt e - p.minIndex) false i = true ↔ _
    rw [hat]
    -- the bit is cleared, and no other object has the index
    by_cases hb : i = p.indexAt e - p.minIndex
    · rw [hb, Function.update_self]
      refine ⟨(nomatch ·), ?_⟩
      rintro ⟨e', hin', heq⟩
      obtain ⟨hne, hin'⟩ := (hindexed e').1 hin'
      change p.indexAt e' = p.indexAt e - p.minIndex + p.minIndex at heq
      exact absurd (h.index_inj hin' hin (by omega)) hne
    · rw [Function.update_of_ne hb, h.bits i hi]
      refine exists_congr fun e' => ?_
      rw [hindexed]
      refine ⟨fun ⟨hin', heq⟩ => ⟨⟨?_, hin'⟩, heq⟩, fun ⟨⟨_, hin'⟩, heq⟩ => ⟨hin', heq⟩⟩
      rintro rfl
      omega
  · intro e' z hz hz'
    obtain ⟨hne, -⟩ := (hindexed e').1 ⟨z, hz, hz'⟩
    rw [hother e' hne] at hz
    exact h.held e' z hz hz'

theorem PoolInv.getIndex (h : PoolInv p) (index : ℕ) :
    (∃ e, p.Indexed e ∧ p.indexAt e = index ∧
        rxePoolGetIndex p index = (some e, rxeAddRef p e)) ∨
      (¬ ∃ e, p.Indexed e ∧ p.indexAt e = index) ∧ rxePoolGetIndex p index = (none, p) := by
  unfold rxePoolGetIndex
  rw [if_neg (not_not.2 h.valid)]
  cases hfind : find p.indexAt index p.tree with
  | some e =>
    obtain ⟨hmem, hkey⟩ := (find_eq_some h.sorted).1 hfind
    exact Or.inl ⟨e, (h.tree e).1 hmem, hkey, rfl⟩
  | none =>
    refine Or.inr ⟨?_, rfl⟩
    rintro ⟨e, hin, hkey⟩
    exact (find_eq_none h.sorted).1 hfind e ((h.tree e).2 hin) hkey

theorem PoolInv.addRef (h : PoolInv p) (e : ℕ) : PoolInv (rxeAddRef p e) :=
  h.setElem (fun _ => rfl) (fun _ => rfl) fun _ _ _ => Nat.succ_pos _

end Index

/-! ### Objects come and go -/

section Slab

variable {p : Pool α} {e : ℕ}

theorem PoolInv.zalloc (h : PoolInv p) (hgranted : p.granted ≠ 0) (hfree : e ∉ p.slab) (zero : α) :
    PoolInv { p with granted := p.granted - 1, slab := insert e p.slab
                     elem := Function.update p.elem e (some { obj := zero }) } := by
  have hnone : p.elem e = none := by
    have hno := mt (h.slab e).2 hfree
    rwa [Bool.not_eq_true, Option.isSome_eq_false_iff, Option.isNone_iff_eq_none] at hno
  set p' : Pool α := { p with granted := p.granted - 1, slab := insert e p.slab
                              elem := Function.update p.elem e (some { obj := zero }) } with hp'
  have hother : ∀ e' ≠ e, p'.elem e' = p.elem e' := fun e' hne => Function.update_of_ne hne ..
  have hsame : p'.elem e = some { obj := zero } := Function.update_self ..
  -- the new object has no index yet
  have hindexed : ∀ e', p'.Indexed e' ↔ p.Indexed e' := by
    intro e'
    by_cases he : e' = e
    · unfold Pool.Indexed
      rw [he, hsame, hnone]
      simp
    · exact indexed_of_ne hother he
  have hat : p'.indexAt = p.indexAt := by
    funext e'
    by_cases he : e' = e
    · unfold Pool.indexAt
      rw [he, hsame, hnone]
      rfl
    · exact indexAt_of_ne hother he
  have hold : ∀ e' z, p'.elem e' = some z → z.phase = .indexed → p.elem e' = some z := by
    intro e' z hz hphase
    rcases elem_cases hother hz with ⟨-, hz⟩ | ⟨-, hz⟩
    · cases hsame.symm.trans hz
      cases hphase
    · exact hz
  have hcard : (insert e p.slab).card = p.slab.card + 1 := Finset.card_insert_of_notMem hfree
  have hrefs := h.refs
  have hcounted := h.counted
  have hlimit := h.limit
  refine ⟨h.valid, ?_, ?_, ?_, h.room, h.bounds, ?_, ?_, ?_, ?_, ?_, ?_⟩
  · show p.refCnt = 1 + p.entered + (p.granted - 1) + p.refused + p.freed + p.leaving + _
    rw [hcard]
    omega
  · show p.numElem = p.granted - 1 + p.refused + p.freed + _
    rw [hcard]
    omega
  · show p.granted - 1 + _ ≤ p.maxElem
    rw [hcard]
    omega
  · intro e'
    rw [Finset.mem_insert]
    by_cases he : e' = e
    · subst he
      rw [hsame]
      simp
    · rw [hother e' he, ← h.slab]
      exact or_iff_right he
  · exact fun e' => (h.tree e').trans (hindexed e').symm
  · rw [hat]
    exact h.sorted
  · exact fun e' z hz hphase => h.inRange e' z (hold e' z hz hphase) hphase
  · intro i hi
    rw [hat]
    exact (h.bits i hi).trans (exists_congr fun e' => and_congr_left' (hindexed e').symm)
  · exact fun e' z hz hphase => h.held e' z (hold e' z hz hphase) hphase

theorem PoolInv.free (h : PoolInv p) {x : Elem α} (hx : p.elem e = some x) (hzero : x.refCnt = 0) :
    PoolInv { p with slab := p.slab.erase e, elem := Function.update p.elem e none
                     freed := p.freed + 1 } := by
  have hin : e ∈ p.slab := (h.slab e).2 (by rw [hx]; rfl)
  -- an object with an index holds a reference, so this one has none
  have hnot : ¬ p.Indexed e := by
    rintro ⟨z, hz, hphase⟩
    have hpos := h.held e z hz hphase
    rw [hx] at hz
    cases hz
    exact absurd hzero hpos.ne'
  set p' : Pool α := { p with slab := p.slab.erase e, elem := Function.update p.elem e none
                              freed := p.freed + 1 } with hp'
  have hother : ∀ e' ≠ e, p'.elem e' = p.elem e' := fun e' hne => Function.update_of_ne hne ..
  have hsame : p'.elem e = none := Function.update_self ..
  have hold : ∀ e' z, p'.elem e' = some z → p.elem e' = some z := by
    intro e' z hz
    rcases elem_cases hother hz with ⟨-, hz⟩ | ⟨-, hz⟩
    · cases hsame.symm.trans hz
    · exact hz
  have hindexed : ∀ e', p'.Indexed e' ↔ p.Indexed e' := by
    intro e'
    by_cases he : e' = e
    · exact ⟨fun ⟨z, hz, hphase⟩ => ⟨z, hold e' z hz, hphase⟩, fun hex => absurd (he ▸ hex) hnot⟩
    · exact indexed_of_ne hother he
  have hat : ∀ e' ≠ e, p'.indexAt e' = p.indexAt e' := fun _ => indexAt_of_ne hother
  have hcard : (p.slab.erase e).card = p.slab.card - 1 := Finset.card_erase_of_mem hin
  have hpos : 0 < p.slab.card := Finset.card_pos.2 ⟨e, hin⟩
  have hrefs := h.refs
  have hcounted := h.counted
  have hlimit := h.limit
  refine ⟨h.valid, ?_, ?_, ?_, h.room, h.bounds, ?_, ?_, ?_, ?_, ?_, ?_⟩
  · show p.refCnt = 1 + p.entered + p.granted + p.refused + (p.freed + 1) + p.leaving + _
    rw [hcard]
    omega
  · show p.numElem = p.granted + p.refused + (p.freed + 1) + _
    rw [hcard]
    omega
  · show p.granted + _ ≤ p.maxElem
    rw [hcard]
    omega
  · intro e'
    rw [Finset.mem_erase]
    by_cases he : e' = e
    · subst he
      rw [hsame]
      simp
    · rw [hother e' he, ← h.slab]
      exact and_iff_right he
  · exact fun e' => (h.tree e').trans (hindexed e').symm
  · refine h.sorted.congr fun e' hmem => hat e' ?_
    rintro rfl
    exact hnot ((h.tree e').1 hmem)
  · exact fun e' z hz hphase => h.inRange e' z (hold e' z hz) hphase
  · intro i hi
    refine (h.bits i hi).trans (exists_congr fun e' => ?_)
    rw [hindexed]
    refine and_congr_right fun hin' => ?_
    rw [hat e']
    rintro rfl
    exact hnot hin'
  · exact fun e' z hz hphase => h.held e' z (hold e' z hz) hphase

end Slab

/-! ### Runs -/

theorem PoolInv.step {p p' : Pool α} {a : PoolAct α} (h : PoolInv p) (hok : PoolOk p a)
    (hstep : poolStep p a = some p') : PoolInv p' ∧ p'.maxElem = p.maxElem := by
  have hrefs := h.refs
  have hcounted := h.counted
  cases a with
  | enter =>
    dsimp only [poolStep] at hstep
    rw [if_pos h.valid] at hstep
    cases hstep
    exact ⟨{ h with refs := by dsimp only; omega }, rfl⟩
  | count =>
    obtain ⟨hentered, hstep⟩ := Option.ite_none_left_eq_some.1 hstep
    split at hstep
    · cases hstep
      exact ⟨{ h with refs := by dsimp only; omega, counted := by dsimp only; omega }, rfl⟩
    · next hroom =>
      cases hstep
      exact ⟨{ h with refs := by dsimp only; omega, counted := by dsimp only; omega
                      limit := by dsimp only; omega }, rfl⟩
  | uncount =>
    obtain ⟨hguard, ⟨⟩⟩ := Option.ite_none_left_eq_some.1 hstep
    exact ⟨{ h with refs := by dsimp only; omega, counted := by dsimp only; omega }, rfl⟩
  | zalloc e zero =>
    obtain ⟨hno, ⟨⟩⟩ := Option.ite_none_left_eq_some.1 hstep
    exact ⟨h.zalloc (fun h0 => hno (Or.inl h0)) (fun hin => hno (Or.inr hin)) zero, rfl⟩
  | addIndex e rot =>
    cases hstep
    obtain ⟨⟨x, hx, hheld, hfresh⟩, hrot⟩ := hok
    exact ⟨h.addIndex hx hheld hfresh hrot, rfl⟩
  | dropIndex e rot =>
    cases hstep
    obtain ⟨⟨x, hx, -, hphase⟩, hrot⟩ := hok
    exact ⟨h.dropIndex hx hphase hrot, rfl⟩
  | getIndex index =>
    cases hstep
    rcases h.getIndex index with ⟨e, -, -, heq⟩ | ⟨-, heq⟩
    · rw [heq]
      exact ⟨h.addRef e, rfl⟩
    · rw [heq]
      exact ⟨h, rfl⟩
  | addRef e =>
    cases hstep
    exact ⟨h.addRef e, rfl⟩
  -- the last reference is dropped after the index
  | dropRef e =>
    cases hstep
    obtain ⟨x, hx, hheld, hlast⟩ := hok
    refine ⟨h.setElem (fun _ => rfl) (fun _ => rfl) fun y hy hphase => ?_, rfl⟩
    rw [hx] at hy
    cases hy
    have hne : x.refCnt ≠ 1 := fun h1 => hlast h1 hphase
    show 0 < x.refCnt - 1
    omega
  | write e f =>
    cases hstep
    exact ⟨h.setElem (fun _ => rfl) (fun _ => rfl) fun y hy hphase => h.held e y hy hphase, rfl⟩
  | free e =>
    dsimp only [poolStep] at hstep
    split at hstep
    · cases hstep
    · next x hx =>
      split at hstep
      · next hzero =>
        cases hstep
        exact ⟨h.free hx hzero, rfl⟩
      · cases hstep
  | discount =>
    obtain ⟨hguard, ⟨⟩⟩ := Option.ite_none_left_eq_some.1 hstep
    exact ⟨{ h with refs := by dsimp only; omega, counted := by dsimp only; omega }, rfl⟩
  | put =>
    obtain ⟨hleaving, ⟨⟩⟩ := Option.ite_none_left_eq_some.1 hstep
    refine ⟨{ h with valid := ?_, refs := ?_ }, rfl⟩
    · show (if p.refCnt = 1 then PoolState.invalid else p.state) = .valid
      -- the pool itself keeps one reference
      rw [if_neg (by omega)]
      exact h.valid
    · show p.refCnt - 1 =
        1 + p.entered + p.granted + p.refused + p.freed + (p.leaving - 1) + p.slab.card
      omega

open Trace in
theorem pool_inv {type : RxeElemType} {maxElem : ℕ} {p₀ p : Pool α}
    (hinit : rxePoolInit α type maxElem = some p₀) (hreach : Reach poolStep PoolOk p₀ p) :
    PoolInv p ∧ p.maxElem = maxElem :=
  Reach.inv (I := fun p => PoolInv p ∧ p.maxElem = maxElem) (rxePoolInit_inv hinit)
    (fun _ _ _ h hok hstep => ⟨(h.1.step hok hstep).1, (h.1.step hok hstep).2.trans h.2⟩) hreach

open Trace in
/-- Whatever calls are made on an indexed pool, at most `max_elem` objects are live; indexed
objects have distinct indices in the range of the pool; a lookup returns the object with the
index and one more reference to it, or nothing if no object has it; and the table has a clear
bit whenever an index is asked for. -/
theorem pool_index_managed (type : RxeElemType) (maxElem : ℕ) (p₀ p : Pool α)
    (hinit : rxePoolInit α type maxElem = some p₀) (hreach : Reach poolStep PoolOk p₀ p) :
    p.slab.card ≤ maxElem ∧ (∀ e, e ∈ p.slab ↔ (p.elem e).isSome) ∧
    (∀ e, p.Indexed e → p.minIndex ≤ p.indexAt e ∧ p.indexAt e ≤ p.maxIndex) ∧
    (∀ e e', p.Indexed e → p.Indexed e' → p.indexAt e = p.indexAt e' → e = e') ∧
    (∀ index e, p.Indexed e → p.indexAt e = index →
      rxePoolGetIndex p index = (some e, rxeAddRef p e)) ∧
    (∀ index, (¬ ∃ e, p.Indexed e ∧ p.indexAt e = index) → rxePoolGetIndex p index = (none, p)) ∧
    ∀ e rot, PoolOk p (.addIndex e rot) → chooseBit p < p.range ∧
      p.table (chooseBit p) = false := by
  obtain ⟨h, hmax⟩ := pool_inv hinit hreach
  have hlimit := h.limit
  refine ⟨by omega, h.slab, ?_, fun e e' he he' => h.index_inj he he', ?_, ?_, ?_⟩
  · rintro e ⟨x, hx, hphase⟩
    rw [indexAt_of_elem hx]
    exact h.inRange e x hx hphase
  · intro index e he heq
    rcases h.getIndex index with ⟨e', he', heq', hget⟩ | ⟨hno, -⟩
    · rw [hget, h.index_inj he' he (heq'.trans heq.symm)]
    · exact absurd ⟨e, he, heq⟩ hno
  · intro index hno
    rcases h.getIndex index with ⟨e, he, heq, -⟩ | ⟨-, hget⟩
    · exact absurd ⟨e, he, heq⟩ hno
    · exact hget
  · rintro e rot ⟨⟨x, hx, -, hfresh⟩, -⟩
    exact chooseBit_spec (h.clear hx (by rw [hfresh]; decide))

end Steps

/-! ### Calls as a whole -/

section Calls

variable {p : Pool α} {e : ℕ}

theorem rxeAlloc_steps {zero : α} (hfree : e ∉ p.slab)
    (halloc : (rxeAlloc p (some e) zero).1 = some e) :
    [.enter, .count, .zalloc e zero].foldlM poolStep p = some (rxeAlloc p (some e) zero).2 := by
  unfold rxeAlloc at halloc ⊢
  split at halloc
  · cases halloc
  · next hno =>
    rw [not_or, not_not] at hno
    have hcount : (p.maxElem < p.numElem + 1) = False := eq_false hno.2
    simp only [List.foldlM_cons, List.foldlM_nil, poolStep, hno.1, hcount, if_true, if_false,
      Option.bind_eq_bind, Option.bind_some, Nat.add_eq_zero_iff, hfree, or_false,
      one_ne_zero, and_false, Nat.add_sub_cancel]
    rfl

theorem rxeElemRelease_steps {x : Elem α} (hx : p.elem e = some x) (hzero : x.refCnt = 0) :
    [.free e, .discount, .put].foldlM poolStep p = some (rxeElemRelease p e) := by
  simp [poolStep, hx, hzero, rxeElemRelease, poolPut]

/-- Between calls every object holds a reference to the pool. -/
structure Allocated (p : Pool α) : Prop where
  valid : p.state = .valid
  refs : p.refCnt = 1 + p.slab.card
  slab : ∀ e, e ∈ p.slab ↔ (p.elem e).isSome

theorem Allocated.elem_eq_none (h : Allocated p) (hfree : e ∉ p.slab) : p.elem e = none := by
  rw [h.slab] at hfree
  simpa using hfree

theorem Allocated.setElem {f : Elem α → Elem α} (h : Allocated p) : Allocated (p.setElem e f) :=
  ⟨h.valid, h.refs, fun e' => by
    rw [setElem_isSome]
    exact h.slab e'⟩

theorem Allocated.setTree (h : Allocated p) (t : BinaryTree ℕ) : Allocated { p with tree := t } :=
  ⟨h.valid, h.refs, h.slab⟩

theorem Allocated.alloc (h : Allocated p) (hfree : e ∉ p.slab) (zero : α) :
    Allocated { p with refCnt := p.refCnt + 1, numElem := p.numElem + 1, slab := insert e p.slab
                       elem := Function.update p.elem e (some { obj := zero }) } := by
  refine ⟨h.valid, ?_, fun e' => ?_⟩
  · dsimp only
    rw [Finset.card_insert_of_notMem hfree, h.refs]
    omega
  · dsimp only
    rw [Finset.mem_insert, h.slab]
    by_cases he : e' = e
    · simp [he]
    · rw [Function.update_of_ne he]
      simp [he]

theorem Allocated.release {x : Elem α} (h : Allocated p) (hx : p.elem e = some x) :
    Allocated (rxeElemRelease p e) := by
  have hin : e ∈ p.slab := (h.slab e).2 (by rw [hx]; rfl)
  have hpos : 0 < p.slab.card := Finset.card_pos.2 ⟨e, hin⟩
  have hrefs := h.refs
  refine ⟨?_, ?_, fun e' => ?_⟩
  · show (if p.refCnt = 1 then PoolState.invalid else p.state) = .valid
    rw [if_neg (by omega)]
    exact h.valid
  · show p.refCnt - 1 = 1 + (p.slab.erase e).card
    rw [Finset.card_erase_of_mem hin]
    omega
  · show e' ∈ p.slab.erase e ↔ (Function.update p.elem e none e').isSome
    rw [Finset.mem_erase, h.slab]
    by_cases he : e' = e
    · simp [he]
    · rw [Function.update_of_ne he]
      simp [he]

theorem rxeAlloc_cases (p : Pool α) (addr : Option ℕ) (zero : α) :
    rxeAlloc p addr zero = (none, p) ∨ ∃ e, addr = some e ∧ rxeAlloc p addr zero = (some e,
      { p with refCnt := p.refCnt + 1, numElem := p.numElem + 1, slab := insert e p.slab
               elem := Function.update p.elem e (some { obj := zero }) }) := by
  unfold rxeAlloc
  split
  · exact Or.inl rfl
  · cases addr with
    | none => exact Or.inl rfl
    | some e => exact Or.inr ⟨e, rfl, rfl⟩

end Calls

open Trace in
/-- The first two objects of a pool of memory regions have the indices 1 and 2. -/
theorem pool_index_two : ∃ p₀ p : Pool Unit, rxePoolInit Unit .mr 2 = some p₀ ∧
    Reach poolStep PoolOk p₀ p ∧ p.slab.card = 2 ∧
    rxePoolGetIndex p 1 = (some 7, rxeAddRef p 7) ∧
    rxePoolGetIndex p 2 = (some 8, rxeAddRef p 8) := by
  obtain ⟨p₀, p, hinit, hsteps, hcard, h7, h8⟩ : ∃ p₀ p : Pool Unit,
      rxePoolInit Unit .mr 2 = some p₀ ∧
      Steps poolStep PoolOk [.enter, .count, .zalloc 7 (), .addIndex 7 id, .enter, .count,
        .zalloc 8 (), .addIndex 8 id] p₀ p ∧ p.slab.card = 2 ∧
      (p.Indexed 7 ∧ p.indexAt 7 = 1) ∧ p.Indexed 8 ∧ p.indexAt 8 = 2 :=
    ⟨_, _, rfl, ⟨trivial, _, rfl, trivial, _, rfl, trivial, _, rfl,
      ⟨⟨_, rfl, Nat.one_pos, rfl⟩, rebalances_id⟩, _, rfl, trivial, _, rfl, trivial, _, rfl,
      trivial, _, rfl, ⟨⟨_, rfl, Nat.one_pos, rfl⟩, rebalances_id⟩, _, rfl, rfl⟩, rfl,
      ⟨⟨_, rfl, rfl⟩, rfl⟩, ⟨_, rfl, rfl⟩, rfl⟩
  have hreach := hsteps.reach .start
  obtain ⟨-, -, -, -, hget, -⟩ := pool_index_managed .mr 2 p₀ p hinit hreach
  exact ⟨p₀, p, hinit, hreach, hcard, hget 1 7 h7.1 h7.2, hget 2 8 h8.1 h8.2⟩

end Rxe
