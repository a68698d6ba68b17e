/-
Memory regions and their keys (`rxe_mr.c`, the memory verbs of `rxe_verbs.c`).

A device has three pools of regions, for MRs, FMRs and MWs, with index ranges that do not
meet.  The key of a region is its index and a byte of a generator that the three share.  A
region goes through the stages of its registration: allocated, indexed, given its keys,
registered; and back, through the error path or through deregistration.  Any number of verbs
and lookups may be under way, each step of each of them at any time.

* `rxeMemInit`, `RegCall.finish`, `rxeMemMapPages` — what the verbs write into a region;
* `rxeLookupMem` — `lookup_mem`;
* `mrStep` — the steps of the verbs, and of the tasks that hold references to regions;
* `lookupMem_pools` — the QP tasks see the pools as a map from indices to regions;
* `lookup_mem_resolves` — a lookup returns the registered region with the key, and no other,
  and takes one reference to it.
-/
import Mathlib.Data.List.Basic
import Mathlib.Data.Nat.Bitwise
import Rxe.Mr
import Rxe.Pool

namespace Rxe

open SearchTree

/-! ### Regions -/

/-- The generator behind the last byte of the keys (`rxe_get_key`), on its static variable. -/
def rxeGetKey (key : ℕ) : ℕ :=
  let key := key <<< 1
  let bit (mask : ℕ) : Bool := key &&& mask ≠ 0
  (key ||| (xor (xor (xor (bit 0x100) (bit 0x10)) (bit 0x80)) (bit 0x40)).toNat) &&& 0xff

/-- `IB_ACCESS_REMOTE` -/
def ibAccessRemote : ℕ := 0xe

/-- How far the registration of a region has come. -/
inductive RegStage
  | fresh | indexed | keyed | registered | closing | closed | gone
  deriving DecidableEq, Repr

/-- A call of one of the registering verbs, with what its init function is given.  A user
region comes with what `ib_umem_get` pinned. -/
inductive RegCall
  | dma (access : ℕ)
  | phys (access iova : ℕ) (bufs : List PhysBuf)
  | user (access start length iova offset pageShift : ℕ) (pages : List ℕ)
  | fast (maxPages : ℕ)
  | fmr (access maxPages pageShift : ℕ)
  | mw
  deriving DecidableEq, Repr

/-- `struct rxe_mem`; `stage`, `job` and `draw` record what the verbs have done with it. -/
structure Region where
  pd : Option ℕ := none
  lkey : ℕ := 0
  rkey : ℕ := 0
  state : MemState := .zombie
  type : MemType := .none
  va : ℕ := 0
  iova : ℕ := 0
  length : ℕ := 0
  offset : ℕ := 0
  access : ℕ := 0
  pageShift : ℕ := 0
  pageMask : ℕ := 0
  numBuf : ℕ := 0
  maxBuf : ℕ := 0
  map : List (List PhysBuf) := []
  stage : RegStage := .fresh
  job : Option (ℕ × RegCall) := none
  draw : ℕ := 0
  deriving DecidableEq, Repr

/-- The access flags a verb gives to `rxe_mem_init`. -/
def RegCall.initAccess : RegCall → ℕ
  | .dma access | .phys access .. | .user access .. | .fmr access .. => access
  | .fast _ | .mw => 0

/-- `index << 8 | rxe_get_key()` as a `u32`. -/
def memKey (index key : ℕ) : ℕ := (index <<< 8 ||| key) % 2 ^ 32

/-- `rxe_mem_init`, with the byte that `rxe_get_key` returned. -/
def rxeMemInit (index key access : ℕ) (mem : Region) : Region :=
  { stage := mem.stage
    job := mem.job
    draw := mem.draw
    lkey := memKey index key
    rkey := if access &&& ibAccessRemote ≠ 0 then memKey index key else 0
    state := .invalid }

/-- `num_map*RXE_BUF_PER_MAP` -/
def allocBufs (numBuf : ℕ) : ℕ := (numBuf + bufPerMap - 1) / bufPerMap * bufPerMap

/-- What the init functions write after `rxe_mem_init` and `rxe_mem_alloc` have succeeded. -/
def RegCall.finish (pd : ℕ) (mem : Region) : RegCall → Region
  | .dma access => { mem with pd := some pd, access, state := .valid, type := .dma }
  | .phys access iova bufs =>
    -- `min_t(int, (size_t)(-1L), ..)` is negative, so `page_shift` stays 0
    { mem with
      numBuf := bufs.length, maxBuf := allocBufs bufs.length, map := bufs.toChunks bufPerMap
      pd := some pd, access, iova, va := iova, length := (bufs.map PhysBuf.size).sum % 2 ^ 64
      state := .valid, type := .mr }
  | .user access start length iova offset pageShift pages =>
    { mem with
      numBuf := pages.length, maxBuf := allocBufs pages.length
      map := (pages.map fun addr => ⟨addr, 2 ^ pageShift⟩ : List PhysBuf).toChunks bufPerMap
      pageShift, pageMask := 2 ^ pageShift - 1
      pd := some pd, access, length, iova, va := start, offset
      state := .valid, type := .mr }
  | .fast maxPages =>
    { mem with numBuf := maxPages, maxBuf := maxPages, pd := some pd, state := .free, type := .mr }
  | .fmr access maxPages pageShift =>
    { mem with
      numBuf := maxPages, maxBuf := maxPages, pageShift, pageMask := 2 ^ pageShift - 1
      pd := some pd, access, state := .free, type := .fmr }
  | .mw => { mem with pd := some pd, state := .free, type := .mw }

/-- `rxe_mem_map_pages`; too many pages leave the region alone. -/
def rxeMemMapPages (pages : List ℕ) (iova : ℕ) (mem : Region) : Region :=
  if mem.maxBuf < pages.length then mem
  else
    { mem with
      map := ((pages.map fun addr => ⟨addr, 2 ^ mem.pageShift⟩ : List PhysBuf) ++
        mem.map.flatten.drop pages.length).toChunks bufPerMap
      iova, va := iova, length := pages.length <<< mem.pageShift, state := .valid }

/-- `rxe_unmap_fmr` for one region. -/
def rxeUnmapFmr (mem : Region) : Region :=
  if mem.state = .valid then
    { mem with va := 0, iova := 0, length := 0, numBuf := 0, state := .free }
  else mem

/-! ### The device and the lookup -/

/-- The three pools of regions. -/
inductive MemPool
  | mr | fmr | mw
  deriving DecidableEq, Repr

def MemPool.type : MemPool → RxeElemType
  | .mr => .mr
  | .fmr => .fmr
  | .mw => .mw

/-- The pool a verb allocates from. -/
def RegCall.pool : RegCall → MemPool
  | .dma _ | .phys .. | .user .. | .fast _ => .mr
  | .fmr .. => .fmr
  | .mw => .mw

/-- The pools of regions, the static variable of `rxe_get_key`, and the keys handed out so
far. -/
structure MrSys where
  pool : MemPool → Pool Region
  key : ℕ := 1
  keys : List ℕ := []

/-- Replace a pool. -/
def MrSys.withPool (s : MrSys) (w : MemPool) (p : Pool Region) : MrSys :=
  { s with pool := Function.update s.pool w p }

/-- The pool `lookup_mem` looks in. -/
def poolOf (index : ℕ) : Option MemPool :=
  if 1 ≤ index ∧ index ≤ 0x20000 then some .mr
  else if 0x20001 ≤ index ∧ index ≤ 0x40000 then some .fmr
  else if 0x40001 ≤ index ∧ index ≤ 0x60000 then some .mw
  else none

/-- The checks of `lookup_mem` on the region it has found. -/
def lookupChecks (mem : Region) (pd access key : ℕ) (type : LookupType) : Bool :=
  !(type = .local && mem.lkey ≠ key || type = .remote && mem.rkey ≠ key) && mem.pd = some pd &&
    !(access ≠ 0 && access &&& mem.access = 0) && mem.state = .valid

/-- `lookup_mem`: the pool and the address of the region, and the pools afterwards. -/
def rxeLookupMem (s : MrSys) (pd access key : ℕ) (type : LookupType) :
    Option (MemPool × ℕ) × MrSys :=
  match poolOf (key >>> 8) with
  | none => (none, s)
  | some w =>
    match rxePoolGetIndex (s.pool w) (key >>> 8) with
    | (none, p) => (none, s.withPool w p)
    | (some e, p) =>
      match p.elem e with
      | none => (none, s.withPool w p)
      | some x =>
        if lookupChecks x.obj pd access key type then (some (w, e), s.withPool w p)
        else (none, s.withPool w (rxeDropRef p e))

/-! ### Steps -/

/-- A step of a verb or of a task that uses a region. -/
inductive MrAct
  /-- Parts of `rxe_alloc` and `rxe_elem_release`. -/
  | pool (w : MemPool) (a : PoolAct Region)
  /-- `rxe_add_index` in a registering verb -/
  | index (w : MemPool) (e : ℕ) (rot : BinaryTree ℕ → BinaryTree ℕ) (pd : ℕ) (call : RegCall)
  /-- `rxe_mem_init` in its init function -/
  | init (w : MemPool) (e : ℕ)
  /-- The init function fails, before or after `rxe_mem_init`. -/
  | reject (w : MemPool) (e : ℕ)
  | finish (w : MemPool) (e : ℕ)
  | map (e : ℕ) (pages : List ℕ) (iova : ℕ)
  | unmap (e : ℕ)
  /-- `mem->state = RXE_MEM_STATE_ZOMBIE` of a deregistering verb -/
  | dereg (w : MemPool) (e : ℕ)
  /-- `rxe_drop_index` of a failing or of a deregistering verb -/
  | dropIndex (w : MemPool) (e : ℕ) (rot : BinaryTree ℕ → BinaryTree ℕ)
  /-- `rxe_drop_ref` of a failing or of a deregistering verb -/
  | dropOwn (w : MemPool) (e : ℕ)
  | lookup (pd access key : ℕ) (type : LookupType)
  /-- The holder of a reference that `lookup_mem` took drops it. -/
  | unref (w : MemPool) (e : ℕ)

/-- The steps of `rxe_alloc` and `rxe_elem_release`. -/
def PoolAct.ofAlloc : PoolAct Region → Bool
  | .enter | .count | .uncount | .free _ | .discount | .put => true
  | .zalloc _ zero => zero = {}
  | _ => false

/-- Change the region at an address. -/
def Pool.setObj (p : Pool Region) (e : ℕ) (f : Region → Region) : Pool Region :=
  p.setElem e fun x => { x with obj := f x.obj }

/-- The stage of the region at an address. -/
def MrSys.stageAt (s : MrSys) (w : MemPool) (e : ℕ) : Option RegStage :=
  ((s.pool w).elem e).map fun x => x.obj.stage

/-- The reference that the registration itself holds. -/
def RegStage.own : RegStage → ℕ
  | .gone => 0
  | _ => 1

/-- What the init function of the verb under way writes. -/
def Region.finished (mem : Region) : Region :=
  match mem.job with
  | none => mem
  | some (pd, call) => { call.finish pd mem with stage := .registered }

def mrStep (s : MrSys) : MrAct → Option MrSys
  | .pool w a => if a.ofAlloc then (poolStep (s.pool w) a).map (s.withPool w) else none
  | .index w e rot pd call =>
    if s.stageAt w e = some .fresh ∧ call.pool = w then
      some (s.withPool w ((rxeAddIndex rot (s.pool w) e).setObj e fun mem =>
        { mem with stage := .indexed, job := some (pd, call) }))
    else none
  | .init w e =>
    match (s.pool w).elem e with
    | none => none
    | some x =>
      if x.obj.stage = .indexed then
        let key := rxeGetKey s.key
        some { s.withPool w ((s.pool w).setObj e fun mem =>
            { rxeMemInit x.index key (mem.job.elim 0 (·.2.initAccess)) mem with
              stage := .keyed, draw := s.keys.length }) with
          key, keys := s.keys ++ [memKey x.index key] }
      else none
  | .reject w e =>
    if s.stageAt w e = some .indexed ∨ s.stageAt w e = some .keyed then
      some (s.withPool w ((s.pool w).setObj e fun mem => { mem with stage := .closing }))
    else none
  | .finish w e =>
    if s.stageAt w e = some .keyed then some (s.withPool w ((s.pool w).setObj e Region.finished))
    else none
  | .map e pages iova =>
    if s.stageAt .fmr e = some .registered then
      some (s.withPool .fmr ((s.pool .fmr).setObj e (rxeMemMapPages pages iova)))
    else none
  | .unmap e =>
    if s.stageAt .fmr e = some .registered then
      some (s.withPool .fmr ((s.pool .fmr).setObj e rxeUnmapFmr))
    else none
  | .dereg w e =>
    if s.stageAt w e = some .registered then
      some (s.withPool w ((s.pool w).setObj e fun mem =>
        { mem with state := .zombie, stage := .closing }))
    else none
  | .dropIndex w e rot =>
    if s.stageAt w e = some .closing then
      some (s.withPool w ((rxeDropIndex rot (s.pool w) e).setObj e fun mem =>
        { mem with stage := .closed }))
    else none
  | .dropOwn w e =>
    if s.stageAt w e = some .closed then
      some (s.withPool w
        ((rxeDropRef (s.pool w) e).setObj e fun mem => { mem with stage := .gone }))
    else none
  | .lookup pd access key type => some (rxeLookupMem s pd access key type).2
  | .unref w e =>
    match (s.pool w).elem e with
    | none => none
    | some x =>
      if x.obj.stage.own < x.refCnt then some (s.withPool w (rxeDropRef (s.pool w) e)) else none

/-- The tree is rebalanced somehow. -/
def MrOk (_ : MrSys) : MrAct → Prop
  | .index _ _ rot _ _ | .dropIndex _ _ rot => Rebalances rot
  | _ => True

/-- The pools after the device is set up. -/
def MrInit (s : MrSys) : Prop :=
  s.key = 1 ∧ s.keys = [] ∧
    ∀ w : MemPool, ∃ maxElem, rxePoolInit Region w.type maxElem = some (s.pool w)

/-! ### The invariant -/

/-- Whether a region at a stage is indexed. -/
def RegStage.phase : RegStage → IndexPhase
  | .fresh => .fresh
  | .indexed | .keyed | .registered | .closing => .indexed
  | .closed | .gone => .dropped

/-- The region has its keys and is in its pool. -/
def RegStage.hasKey : RegStage → Bool
  | .keyed | .registered => true
  | _ => false

/-- What holds of a region at each stage. -/
structure RegionInv (x : Elem Region) : Prop where
  phase : x.phase = x.obj.stage.phase
  held : x.obj.stage.own ≤ x.refCnt
  valid : x.obj.state = .valid → x.obj.stage = .registered
  lkey : x.obj.stage.hasKey → x.obj.lkey >>> 8 = x.index
  rkey : x.obj.stage.hasKey → x.obj.rkey = x.obj.lkey ∨ x.obj.rkey = 0

/-- What holds of a pool of regions. -/
structure RegionPoolInv (w : MemPool) (p : Pool Region) : Prop where
  pool : PoolInv p
  range : indexRange w.type = some (p.minIndex, p.maxIndex)
  region : ∀ e x, p.elem e = some x → RegionInv x

structure MrInv (s : MrSys) : Prop where
  pools : ∀ w, RegionPoolInv w (s.pool w)
  key : s.key < 2 ^ 8

section Invariant

variable {s : MrSys} {w : MemPool} {p : Pool Region} {e : ℕ} {x : Elem Region}

theorem rxeGetKey_lt (key : ℕ) : rxeGetKey key < 2 ^ 8 := by
  exact Nat.and_lt_two_pow _ (by decide)

theorem mrInit_inv (h : MrInit s) : MrInv s := by
  obtain ⟨hkey, -, hpools⟩ := h
  refine ⟨fun w => ?_, by rw [hkey]; decide⟩
  obtain ⟨maxElem, hinit⟩ := hpools w
  obtain ⟨min, max, hrange, -, hp⟩ := rxePoolInit_eq hinit
  refine ⟨(rxePoolInit_inv hinit).1, by rw [hp]; exact hrange, fun e x hx => ?_⟩
  rw [hp] at hx
  cases hx

theorem MrInv.withPool (h : MrInv s) (hp : RegionPoolInv w p) : MrInv (s.withPool w p) := by
  refine ⟨fun w' => ?_, h.key⟩
  by_cases hw : w' = w
  · subst hw
    show RegionPoolInv w' (Function.update s.pool w' p w')
    rw [Function.update_self]
    exact hp
  · show RegionPoolInv w' (Function.update s.pool w p w')
    rw [Function.update_of_ne hw]
    exact h.pools w'

theorem RegionPoolInv.setElem {f : Elem Region → Elem Region} (h : RegionPoolInv w p)
    (hindex : ∀ x, (f x).index = x.index) (hphase : ∀ x, (f x).phase = x.phase)
    (hf : ∀ x, p.elem e = some x → RegionInv x → RegionInv (f x)) :
    RegionPoolInv w (p.setElem e f) where
  pool := by
    refine h.pool.setElem hindex hphase fun x hx hx' => ?_
    have hinv := hf x hx (h.region e x hx)
    have hstage := (hinv.phase.symm.trans (hphase x)).trans hx'
    have hheld := hinv.held
    cases hcase : (f x).obj.stage <;> rw [hcase] at hstage hheld
    all_goals first | exact hheld | cases hstage
  range := h.range
  region e' y hy := by
    rcases setElem_cases hy with ⟨-, x, hx, rfl⟩ | ⟨-, hx⟩
    · exact hf x hx (h.region e x hx)
    · exact h.region e' y hx

theorem RegionPoolInv.setObj {stage : RegStage} {f : Region → Region} (h : RegionPoolInv w p)
    (hstage : (p.elem e).map (fun x => x.obj.stage) = some stage)
    (hf : ∀ x : Elem Region, x.obj.stage = stage → RegionInv x →
      RegionInv { x with obj := f x.obj }) : RegionPoolInv w (p.setObj e f) := by
  refine h.setElem (fun _ => rfl) (fun _ => rfl) fun x hx hinv => hf x ?_ hinv
  rw [hx] at hstage
  exact Option.some.inj hstage

theorem stageAt_eq {stage : RegStage} (h : s.stageAt w e = some stage) :
    ∃ x, (s.pool w).elem e = some x ∧ x.obj.stage = stage := by
  exact Option.map_eq_some_iff.1 h

theorem RegionPoolInv.index {rot : BinaryTree ℕ → BinaryTree ℕ} (h : RegionPoolInv w p)
    (hx : p.elem e = some x) (hstage : x.obj.stage = .fresh) (hrot : Rebalances rot)
    (job : ℕ × RegCall) :
    RegionPoolInv w ((rxeAddIndex rot p e).setObj e fun mem =>
      { mem with stage := .indexed, job := some job }) := by
  have hinv := h.region e x hx
  have hheld : 0 < x.refCnt := by
    have := hinv.held
    rwa [hstage] at this
  have hfresh : x.phase = .fresh := by rw [hinv.phase, hstage]; rfl
  have hpool := h.pool.addIndex hx hheld hfresh hrot
  have helem := rxeAddIndex_elem rot hx
  refine ⟨hpool.setElem (fun _ => rfl) (fun _ => rfl) fun y hy hphase => hpool.held e y hy hphase,
    h.range, ?_⟩
  intro e' y hy
  rcases setElem_cases hy with ⟨-, z, hz, rfl⟩ | ⟨hne, hz⟩
  · rw [helem, Function.update_self] at hz
    cases hz
    -- a region without an index is not valid yet
    refine ⟨rfl, hheld, fun hval => ?_, nofun, nofun⟩
    have := hinv.valid hval
    rw [hstage] at this
    cases this
  · rw [helem, Function.update_of_ne hne] at hz
    exact h.region e' y hz

theorem RegionPoolInv.dropIndex {rot : BinaryTree ℕ → BinaryTree ℕ} (h : RegionPoolInv w p)
    (hx : p.elem e = some x) (hstage : x.obj.stage = .closing) (hrot : Rebalances rot) :
    RegionPoolInv w ((rxeDropIndex rot p e).setObj e fun mem => { mem with stage := .closed }) := by
  have hinv := h.region e x hx
  have hindexed : x.phase = .indexed := by rw [hinv.phase, hstage]; rfl
  have hpool := h.pool.dropIndex hx hindexed hrot
  refine ⟨hpool.setElem (fun _ => rfl) (fun _ => rfl) fun y hy hphase => hpool.held e y hy hphase,
    h.range, ?_⟩
  intro e' y hy
  rcases setElem_cases hy with ⟨-, z, hz, rfl⟩ | ⟨hne, hz⟩
  · rcases setElem_cases hz with ⟨-, z', hz', rfl⟩ | ⟨hno, -⟩
    · cases hx.symm.trans hz'
      refine ⟨rfl, ?_, fun hval => ?_, nofun, nofun⟩
      · have hheld := hinv.held
        rw [hstage] at hheld
        exact hheld
      · have := hinv.valid hval
        rw [hstage] at this
        cases this
    · exact absurd rfl hno
  · rcases setElem_cases hz with ⟨heq, -⟩ | ⟨-, hz'⟩
    · exact absurd heq hne
    · exact h.region e' y hz'

theorem elem_of_alloc {a : PoolAct Region} {p' : Pool Region} (ha : a.ofAlloc)
    (hstep : poolStep p a = some p') (hx : p'.elem e = some x) :
    p.elem e = some x ∨ x = { obj := {} } := by
  cases a with
  | zalloc e' zero =>
    obtain ⟨-, ⟨⟩⟩ := Option.ite_none_left_eq_some.1 hstep
    obtain rfl : zero = {} := by simpa [PoolAct.ofAlloc] using ha
    by_cases he : e = e'
    · subst he
      exact Or.inr (Option.some.inj (hx.symm.trans (Function.update_self ..)))
    · exact Or.inl ((Function.update_of_ne he ..).symm.trans hx)
  | free e' =>
    dsimp only [poolStep] at hstep
    split at hstep
    · cases hstep
    · obtain ⟨-, ⟨⟩⟩ := Option.ite_none_right_eq_some.1 hstep
      by_cases he : e = e'
      · subst he
        cases (Function.update_self ..).symm.trans hx
      · exact Or.inl ((Function.update_of_ne he ..).symm.trans hx)
  | enter | count | uncount | discount | put =>
    left
    dsimp only [poolStep] at hstep
    (repeat' split at hstep) <;> first | (cases hstep; done) | (cases hstep; exact hx)
  | addIndex | dropIndex | getIndex | addRef | dropRef | write => cases ha

theorem RegionPoolInv.alloc {a : PoolAct Region} {p' : Pool Region} (h : RegionPoolInv w p)
    (ha : a.ofAlloc) (hstep : poolStep p a = some p') : RegionPoolInv w p' := by
  have hok : PoolOk p a := by cases a <;> trivial
  refine ⟨(h.pool.step hok hstep).1, ?_, fun e x hx => ?_⟩
  · cases a <;> dsimp only [poolStep] at hstep <;> first
      | (cases ha; done)
      | (repeat' split at hstep) <;> first | (cases hstep; done) | (cases hstep; exact h.range)
  · rcases elem_of_alloc ha hstep hx with hold | rfl
    · exact h.region e x hold
    · exact ⟨rfl, le_rfl, nofun, nofun, nofun⟩

theorem memKey_eq {index key : ℕ} (hkey : key < 2 ^ 8) :
    memKey index key = (index * 2 ^ 8 + key) % 2 ^ 32 := by
  unfold memKey
  rw [← Nat.shiftLeft_add_eq_or_of_lt hkey, Nat.shiftLeft_eq]

theorem memKey_shiftRight {index key : ℕ} (hindex : index < 2 ^ 24) (hkey : key < 2 ^ 8) :
    memKey index key >>> 8 = index := by
  rw [memKey_eq hkey, Nat.shiftRight_eq_div_pow]
  omega

theorem RegionPoolInv.index_lt (h : RegionPoolInv w p) (hx : p.elem e = some x)
    (hphase : x.phase = .indexed) : x.index < 2 ^ 24 := by
  have hle := (h.pool.inRange e x hx hphase).2
  have hmax : p.maxIndex < 2 ^ 24 := by
    have hrange := h.range
    cases w <;> simp only [MemPool.type, indexRange, Option.some.injEq, Prod.mk.injEq] at hrange <;>
      omega
  exact hle.trans_lt hmax

theorem rxeMemInit_rkey (index key access : ℕ) (mem : Region) :
    (rxeMemInit index key access mem).rkey = (rxeMemInit index key access mem).lkey ∨
      (rxeMemInit index key access mem).rkey = 0 := by
  unfold rxeMemInit
  split
  · exact Or.inl rfl
  · exact Or.inr rfl

theorem RegionPoolInv.init (h : RegionPoolInv w p) (hx : p.elem e = some x)
    (hstage : x.obj.stage = .indexed) {key : ℕ} (hkey : key < 2 ^ 8) (draw : ℕ) :
    RegionPoolInv w (p.setObj e fun mem =>
      { rxeMemInit x.index key (mem.job.elim 0 (·.2.initAccess)) mem with
        stage := .keyed, draw }) := by
  refine h.setElem (fun _ => rfl) (fun _ => rfl) fun y hy hinv => ?_
  cases hx.symm.trans hy
  have hphase : x.phase = .indexed := by rw [hinv.phase, hstage]; rfl
  refine ⟨hphase, ?_, nofun, fun _ => ?_, fun _ => rxeMemInit_rkey x.index key _ x.obj⟩
  · have hheld := hinv.held
    rwa [hstage] at hheld
  · exact memKey_shiftRight (h.index_lt hx hphase) hkey

theorem finish_keys (pd : ℕ) (mem : Region) (call : RegCall) :
    (call.finish pd mem).lkey = mem.lkey ∧ (call.finish pd mem).rkey = mem.rkey := by
  cases call <;> exact ⟨rfl, rfl⟩

theorem finished_inv (h : RegionInv x) (hstage : x.obj.stage = .keyed) :
    RegionInv { x with obj := x.obj.finished } := by
  unfold Region.finished
  split
  · exact h
  · next pd call hjob =>
    obtain ⟨hlkey, hrkey⟩ := finish_keys pd x.obj call
    have hphase := h.phase
    have hheld := h.held
    rw [hstage] at hphase hheld
    have hkeyed : x.obj.stage.hasKey := by rw [hstage]; rfl
    refine ⟨hphase, hheld, fun _ => rfl, fun _ => ?_, fun _ => ?_⟩
    · exact (congrArg (· >>> 8) hlkey).trans (h.lkey hkeyed)
    · show (call.finish pd x.obj).rkey = (call.finish pd x.obj).lkey ∨
        (call.finish pd x.obj).rkey = 0
      rw [hlkey, hrkey]
      exact h.rkey hkeyed

theorem RegionInv.congr {mem : Region} (h : RegionInv x) (hstage : mem.stage = x.obj.stage)
    (hlkey : mem.lkey = x.obj.lkey) (hrkey : mem.rkey = x.obj.rkey)
    (hvalid : mem.state = .valid → x.obj.stage = .registered) :
    RegionInv { x with obj := mem } := by
  refine ⟨?_, ?_, ?_, ?_, ?_⟩ <;> dsimp only <;> rw [hstage]
  · exact h.phase
  · exact h.held
  · exact hvalid
  · rw [hlkey]
    exact h.lkey
  · rw [hlkey, hrkey]
    exact h.rkey

theorem RegionInv.close {mem : Region} (h : RegionInv x) (hphase : x.phase = .indexed)
    (hstage : mem.stage = .closing) (hstate : mem.state ≠ .valid) (hown : x.obj.stage.own = 1) :
    RegionInv { x with obj := mem } := by
  have hheld := h.held
  rw [hown] at hheld
  refine ⟨?_, ?_, fun hval => absurd hval hstate, ?_, ?_⟩ <;> dsimp only <;> rw [hstage]
  · exact hphase
  · exact hheld
  · exact nofun
  · exact nofun

end Invariant

/-! ### Lookups -/

/-- The call of `lookup_mem` should return the region at `(w, e)`: it is registered, in the
state VALID, belongs to the PD, has the key and allows the access. -/
def Resolves (s : MrSys) (pd access key : ℕ) (type : LookupType) (r : MemPool × ℕ) : Prop :=
  ∃ x, (s.pool r.1).elem r.2 = some x ∧ x.obj.stage = .registered ∧ x.obj.state = .valid ∧
    x.obj.pd = some pd ∧ (match type with
      | .local => x.obj.lkey = key
      | .remote => x.obj.rkey = key) ∧ (access ≠ 0 → access &&& x.obj.access ≠ 0)

section Lookup

variable {s : MrSys} {pd access key : ℕ} {type : LookupType}

theorem lookupChecks_iff (mem : Region) : lookupChecks mem pd access key type ↔
    mem.state = .valid ∧ mem.pd = some pd ∧ (match type with
      | .local => mem.lkey = key
      | .remote => mem.rkey = key) ∧ (access ≠ 0 → access &&& mem.access ≠ 0) := by
  unfold lookupChecks
  cases type <;> simp <;> tauto

theorem poolOf_eq_some {index : ℕ} {w : MemPool} : poolOf index = some w ↔
    ∃ min max, indexRange w.type = some (min, max) ∧ min ≤ index ∧ index ≤ max := by
  unfold poolOf
  cases w <;> simp only [MemPool.type, indexRange, Option.some.injEq, Prod.mk.injEq] <;>
    (repeat' split) <;> simp <;> omega

theorem poolOf_eq_none {index : ℕ} : poolOf index = none ↔ ¬ (1 ≤ index ∧ index ≤ 0x60000) := by
  unfold poolOf
  (repeat' split) <;> simp <;> omega

theorem dropRef_addRef (p : Pool Region) (e : ℕ) : rxeDropRef (rxeAddRef p e) e = p := by
  have helem : (rxeDropRef (rxeAddRef p e) e).elem = p.elem := by
    funext e'
    unfold rxeDropRef rxeAddRef
    by_cases he : e' = e
    · rw [he, setElem_same, setElem_same, Option.map_map]
      cases p.elem e <;> rfl
    · rw [setElem_of_ne he, setElem_of_ne he]
  exact congrArg (fun f => { p with elem := f }) helem

theorem withPool_self (s : MrSys) (w : MemPool) : s.withPool w (s.pool w) = s := by
  unfold MrSys.withPool
  rw [Function.update_eq_self]

theorem Resolves.lkey {r : MemPool × ℕ} (h : MrInv s) (hkey : key ≠ 0)
    (hr : Resolves s pd access key type r) : ∃ x, (s.pool r.1).elem r.2 = some x ∧
      x.obj.stage = .registered ∧ x.obj.stage.hasKey ∧ x.obj.lkey = key := by
  obtain ⟨x, hx, hstage, -, -, hmatch, -⟩ := hr
  have hhas : x.obj.stage.hasKey := by rw [hstage]; rfl
  refine ⟨x, hx, hstage, hhas, ?_⟩
  cases type with
  | «local» => exact hmatch
  | remote =>
    rcases ((h.pools r.1).region r.2 x hx).rkey hhas with heq | hzero
    · exact heq.symm.trans hmatch
    · exact absurd (hmatch.symm.trans hzero) hkey

theorem Resolves.found {r : MemPool × ℕ} (h : MrInv s) (hkey : key ≠ 0)
    (hr : Resolves s pd access key type r) : poolOf (key >>> 8) = some r.1 ∧
      (s.pool r.1).Indexed r.2 ∧ (s.pool r.1).indexAt r.2 = key >>> 8 := by
  obtain ⟨x, hx, hstage, hhas, hlkey⟩ := hr.lkey h hkey
  have hpool := h.pools r.1
  have hinv := hpool.region r.2 x hx
  have hindex : x.index = key >>> 8 := by
    rw [← hlkey]
    exact (hinv.lkey hhas).symm
  have hphase : x.phase = .indexed := by rw [hinv.phase, hstage]; rfl
  have hin := hpool.pool.inRange r.2 x hx hphase
  refine ⟨poolOf_eq_some.2 ⟨_, _, hpool.range, ?_⟩, ⟨x, hx, hphase⟩, ?_⟩
  · rw [← hindex]
    exact hin
  · rw [indexAt_of_elem hx, hindex]

theorem MrInv.lookup (h : MrInv s) (pd access : ℕ) (type : LookupType) (hkey : key ≠ 0) :
    (∃ r, Resolves s pd access key type r ∧ rxeLookupMem s pd access key type =
        (some r, s.withPool r.1 (rxeAddRef (s.pool r.1) r.2))) ∨
      (∀ r, ¬ Resolves s pd access key type r) ∧ rxeLookupMem s pd access key type = (none, s) := by
  unfold rxeLookupMem
  cases hw : poolOf (key >>> 8) with
  | none =>
    refine Or.inr ⟨fun r hr => ?_, rfl⟩
    have := (hr.found h hkey).1
    rw [hw] at this
    cases this
  | some w =>
    dsimp only
    rcases (h.pools w).pool.getIndex (key >>> 8) with ⟨e, ⟨x, hx, hphase⟩, hat, hget⟩ | ⟨hno, hget⟩
    · have hadd : (rxeAddRef (s.pool w) e).elem e = some { x with refCnt := x.refCnt + 1 } :=
        setElem_self hx
      rw [hget]
      dsimp only
      rw [hadd]
      dsimp only
      split
      · next hchecks =>
        obtain ⟨hstate, hpd, hmatch, haccess⟩ := (lookupChecks_iff x.obj).1 hchecks
        exact Or.inl ⟨(w, e), ⟨x, hx, ((h.pools w).region e x hx).valid hstate, hstate, hpd, hmatch,
          haccess⟩, rfl⟩
      · next hchecks =>
        refine Or.inr ⟨fun r hr => ?_, ?_⟩
        · obtain ⟨hpool, hin, hindex⟩ := hr.found h hkey
          obtain rfl : w = r.1 := Option.some.inj (hw.symm.trans hpool)
          -- the index leads to one region only
          have he : r.2 = e :=
            (h.pools r.1).pool.index_inj hin ⟨x, hx, hphase⟩ (hindex.trans hat.symm)
          obtain ⟨y, hy, -, hstate, hpd, hmatch, haccess⟩ := hr
          rw [he, hx] at hy
          cases hy
          exact hchecks ((lookupChecks_iff x.obj).2 ⟨hstate, hpd, hmatch, haccess⟩)
        · rw [dropRef_addRef, withPool_self]
    · rw [hget]
      dsimp only
      refine Or.inr ⟨fun r hr => ?_, by rw [withPool_self]⟩
      obtain ⟨hpool, hin, hindex⟩ := hr.found h hkey
      obtain rfl : w = r.1 := Option.some.inj (hw.symm.trans hpool)
      exact hno ⟨r.2, hin, hindex⟩

end Lookup

/-! ### The view of the QP tasks -/

/-- The bit of an access right in `enum ib_access_flags`. -/
def Access.bit : Access → ℕ
  | .localWrite => 1
  | .remoteWrite => 2
  | .remoteRead => 4
  | .remoteAtomic => 8

/-- A region as the QP tasks see it; no PD looks for a region without a PD. -/
def Region.toMem (mem : Region) : Option Mem :=
  mem.pd.map fun pd =>
    { pd, lkey := mem.lkey, rkey := mem.rkey, state := mem.state, type := mem.type
      iova := mem.iova, length := mem.length, offset := mem.offset
      access := [.localWrite, .remoteWrite, .remoteRead, .remoteAtomic].filter fun a =>
        a.bit &&& mem.access ≠ 0
      pageShift := mem.pageShift, pageMask := mem.pageMask, mapShift := 8, mapMask := 255
      map := mem.map }

/-- The region with an index. -/
def MrSys.mem (s : MrSys) (index : ℕ) : Option Mem :=
  (poolOf index).bind fun w =>
    (find (s.pool w).indexAt index (s.pool w).tree).bind fun e =>
      ((s.pool w).elem e).bind fun x => x.obj.toMem

theorem lookupChecks_toMem (mem : Region) (pd key : ℕ) (access : Option Access)
    (type : LookupType) : lookupChecks mem pd (access.elim 0 Access.bit) key type =
      mem.toMem.any fun m => memAnswers m pd access key type := by
  have haccess : (access.elim 0 Access.bit ≠ 0 → access.elim 0 Access.bit &&& mem.access ≠ 0) ↔
      ¬ ∃ a ∈ access, a ∉ [Access.localWrite, .remoteWrite, .remoteRead, .remoteAtomic].filter
        fun a => a.bit &&& mem.access ≠ 0 := by
    cases access with
    | none => simp
    | some a => cases a <;> simp [Access.bit] <;> exact decide_eq_true_iff.symm
  rw [Bool.eq_iff_iff, lookupChecks_iff, haccess, Region.toMem, Option.any_map]
  cases mem.pd with
  | none => simp
  | some pd' =>
    simp only [Option.any_some, memAnswers_iff]
    cases type <;> simp <;> tauto

/-- The regions that are seen are those of the pools that have the index. -/
theorem MrInv.mem_eq_some {s : MrSys} {index : ℕ} {m : Mem} (h : MrInv s) :
    s.mem index = some m ↔ ∃ w e x, (s.pool w).elem e = some x ∧ x.phase = .indexed ∧
      x.index = index ∧ x.obj.toMem = some m := by
  simp only [MrSys.mem, Option.bind_eq_some_iff]
  constructor
  · rintro ⟨w, -, e, hfind, x, hx, hm⟩
    have hpool := (h.pools w).pool
    obtain ⟨hin, hat⟩ := (find_eq_some hpool.sorted).1 hfind
    obtain ⟨y, hy, hphase⟩ := (hpool.tree e).1 hin
    obtain rfl : x = y := Option.some.inj (hx.symm.trans hy)
    exact ⟨w, e, x, hx, hphase, by rw [← hat, indexAt_of_elem hx], hm⟩
  · rintro ⟨w, e, x, hx, hphase, rfl, hm⟩
    -- the index is in the range of the pool, and the tree of the pool has it
    have hpool := (h.pools w).pool
    refine ⟨w, poolOf_eq_some.2 ⟨_, _, (h.pools w).range, hpool.inRange e x hx hphase⟩, e, ?_, x,
      hx, hm⟩
    exact (find_eq_some hpool.sorted).2 ⟨(hpool.tree e).2 ⟨x, hx, hphase⟩, indexAt_of_elem hx⟩

/-! ### Runs -/

section Step

variable {s s' : MrSys} {w : MemPool} {p : Pool Region} {e : ℕ} {x : Elem Region}

theorem RegionPoolInv.dropOwn (h : RegionPoolInv w p) (hx : p.elem e = some x)
    (hstage : x.obj.stage = .closed) :
    RegionPoolInv w ((rxeDropRef p e).setObj e fun mem => { mem with stage := .gone }) := by
  have hcomp : (rxeDropRef p e).setObj e (fun mem => { mem with stage := .gone }) =
      p.setElem e fun x =>
        { x with refCnt := x.refCnt - 1, obj := { x.obj with stage := .gone } } := by
    exact setElem_setElem ..
  rw [hcomp]
  refine h.setElem (fun _ => rfl) (fun _ => rfl) fun y hy hinv => ?_
  cases hx.symm.trans hy
  have hphase := hinv.phase
  rw [hstage] at hphase
  refine ⟨hphase, Nat.zero_le _, fun hval => ?_, nofun, nofun⟩
  have := hinv.valid hval
  rw [hstage] at this
  cases this

theorem RegionPoolInv.addRef (h : RegionPoolInv w p) (e : ℕ) : RegionPoolInv w (rxeAddRef p e) :=
  h.setElem (fun _ => rfl) (fun _ => rfl) fun _ _ hinv =>
    ⟨hinv.phase, Nat.le_succ_of_le hinv.held, hinv.valid, hinv.lkey, hinv.rkey⟩

theorem RegionPoolInv.unref (h : RegionPoolInv w p) (hx : p.elem e = some x)
    (hheld : x.obj.stage.own < x.refCnt) : RegionPoolInv w (rxeDropRef p e) := by
  refine h.setElem (fun _ => rfl) (fun _ => rfl) fun y hy hinv => ?_
  cases hx.symm.trans hy
  exact ⟨hinv.phase, Nat.le_sub_one_of_lt hheld, hinv.valid, hinv.lkey, hinv.rkey⟩

theorem MrInv.step {a : MrAct} (h : MrInv s) (hok : MrOk s a) (hstep : mrStep s a = some s') :
    MrInv s' := by
  cases a with
  | pool w a =>
    obtain ⟨ha, hstep⟩ := Option.ite_none_right_eq_some.1 hstep
    obtain ⟨p', hp', rfl⟩ := Option.map_eq_some_iff.1 hstep
    exact h.withPool ((h.pools w).alloc ha hp')
  | index w e rot pd call =>
    obtain ⟨hguard, hstep⟩ := Option.ite_none_right_eq_some.1 hstep
    obtain ⟨x, hx, hstage⟩ := stageAt_eq hguard.1
    cases hstep
    exact h.withPool ((h.pools w).index hx hstage hok (pd, call))
  | init w e =>
    dsimp only [mrStep] at hstep
    split at hstep
    · cases hstep
    · next x hx =>
      obtain ⟨hstage, ⟨⟩⟩ := Option.ite_none_right_eq_some.1 hstep
      have hkey := rxeGetKey_lt s.key
      exact ⟨(h.withPool ((h.pools w).init hx hstage hkey s.keys.length)).pools, hkey⟩
  | reject w e =>
    obtain ⟨hguard, ⟨⟩⟩ := Option.ite_none_right_eq_some.1 hstep
    refine h.withPool ((h.pools w).setElem (fun _ => rfl) (fun _ => rfl) fun x hx hinv => ?_)
    have hstage : x.obj.stage = .indexed ∨ x.obj.stage = .keyed := by
      unfold MrSys.stageAt at hguard
      rw [hx] at hguard
      exact hguard.imp Option.some.inj Option.some.inj
    -- what is rejected was never made valid
    have hstate : x.obj.state ≠ .valid := by
      intro hval
      have := hinv.valid hval
      rcases hstage with hst | hst <;> rw [hst] at this <;> cases this
    refine hinv.close ?_ rfl hstate ?_
    · rw [hinv.phase]
      rcases hstage with hst | hst <;> rw [hst] <;> rfl
    · rcases hstage with hst | hst <;> rw [hst] <;> rfl
  | finish w e =>
    obtain ⟨hguard, ⟨⟩⟩ := Option.ite_none_right_eq_some.1 hstep
    exact h.withPool ((h.pools w).setObj hguard fun x hstage hinv => finished_inv hinv hstage)
  | map e pages iova =>
    obtain ⟨hguard, ⟨⟩⟩ := Option.ite_none_right_eq_some.1 hstep
    refine h.withPool ((h.pools .fmr).setObj hguard fun x hstage hinv => ?_)
    unfold rxeMemMapPages
    split
    · exact hinv
    · exact hinv.congr rfl rfl rfl fun _ => hstage
  | unmap e =>
    obtain ⟨hguard, ⟨⟩⟩ := Option.ite_none_right_eq_some.1 hstep
    refine h.withPool ((h.pools .fmr).setObj hguard fun x hstage hinv => ?_)
    unfold rxeUnmapFmr
    split
    · exact hinv.congr rfl rfl rfl fun _ => hstage
    · exact hinv
  | dereg w e =>
    obtain ⟨hguard, ⟨⟩⟩ := Option.ite_none_right_eq_some.1 hstep
    refine h.withPool ((h.pools w).setObj hguard fun x hstage hinv => ?_)
    refine hinv.close ?_ rfl nofun ?_
    · rw [hinv.phase, hstage]
      rfl
    · rw [hstage]
      rfl
  | dropIndex w e rot =>
    obtain ⟨hguard, hstep⟩ := Option.ite_none_right_eq_some.1 hstep
    obtain ⟨x, hx, hstage⟩ := stageAt_eq hguard
    cases hstep
    exact h.withPool ((h.pools w).dropIndex hx hstage hok)
  | dropOwn w e =>
    obtain ⟨hguard, hstep⟩ := Option.ite_none_right_eq_some.1 hstep
    obtain ⟨x, hx, hstage⟩ := stageAt_eq hguard
    cases hstep
    exact h.withPool ((h.pools w).dropOwn hx hstage)
  | lookup pd access key type =>
    cases hstep
    by_cases hkey : key = 0
    · subst hkey
      exact h
    · rcases h.lookup pd access type hkey with ⟨r, -, heq⟩ | ⟨-, heq⟩
      · rw [heq]
        exact h.withPool ((h.pools r.1).addRef r.2)
      · rw [heq]
        exact h
  | unref w e =>
    dsimp only [mrStep] at hstep
    split at hstep
    · cases hstep
    · next x hx =>
      obtain ⟨hheld, ⟨⟩⟩ := Option.ite_none_right_eq_some.1 hstep
      exact h.withPool ((h.pools w).unref hx hheld)

end Step

theorem lookupMem_of_index {dev : Dev} {f : ℕ → Option Mem}
    (hmem : ∀ i, (dev.index i).bind dev.mem = f i) (pd key : ℕ) (access : Option Access)
    (type : LookupType) : lookupMem dev pd access key type =
      if 1 ≤ key >>> 8 ∧ key >>> 8 ≤ 0x60000 then
        (dev.index (key >>> 8)).filter fun _ =>
          (f (key >>> 8)).any fun m => memAnswers m pd access key type
      else none := by
  rw [lookupMem, ← Nat.shiftRight_eq_div_pow, ← hmem]
  cases dev.index (key >>> 8) <;> rfl

open Trace in
/-- In every reachable state, a lookup through the map from indices to regions that the QP tasks
use answers as `lookup_mem` does in the pools, whatever the regions are called. -/
theorem lookupMem_pools (s₀ s : MrSys) (hinit : MrInit s₀) (hreach : Reach mrStep MrOk s₀ s)
    (dev : Dev) (hmem : ∀ i, (dev.index i).bind dev.mem = s.mem i) (pd key : ℕ)
    (access : Option Access) (type : LookupType) :
    lookupMem dev pd access key type =
      ((rxeLookupMem s pd (access.elim 0 Access.bit) key type).1.map fun r =>
        (s.pool r.1).indexAt r.2).bind dev.index := by
  have h : MrInv s := hreach.inv (mrInit_inv hinit) fun _ _ _ h hok hstep => h.step hok hstep
  rw [lookupMem_of_index hmem, rxeLookupMem, MrSys.mem]
  cases hw : poolOf (key >>> 8) with
  | none =>
    rw [if_neg (poolOf_eq_none.1 hw)]
    rfl
  | some w =>
    have hrange : 1 ≤ key >>> 8 ∧ key >>> 8 ≤ 0x60000 := by
      by_contra hno
      cases hw.symm.trans (poolOf_eq_none.2 hno)
    rw [if_pos hrange]
    unfold rxePoolGetIndex
    dsimp only [Option.bind_some]
    rw [if_neg (not_not.2 (h.pools w).pool.valid)]
    cases hfind : find (s.pool w).indexAt (key >>> 8) (s.pool w).tree with
    | none => cases dev.index (key >>> 8) <;> rfl
    | some e =>
      obtain ⟨hin, hat⟩ := (find_eq_some (h.pools w).pool.sorted).1 hfind
      obtain ⟨x, hx, -⟩ := ((h.pools w).pool.tree e).1 hin
      have hadd : (rxeAddRef (s.pool w) e).elem e = some { x with refCnt := x.refCnt + 1 } :=
        setElem_self hx
      dsimp only [Option.bind_some]
      rw [hadd, hx]
      dsimp only [Option.bind_some]
      -- the two sets of checks agree
      rw [← lookupChecks_toMem]
      cases lookupChecks x.obj pd (access.elim 0 Access.bit) key type with
      | false => cases dev.index (key >>> 8) <;> rfl
      | true =>
        refine Eq.trans ?_ (congrArg dev.index hat.symm)
        cases dev.index (key >>> 8) <;> rfl

open Trace in
/-- Whatever regions have been registered, mapped and deregistered: `lookup_mem` returns a
region exactly if it is registered, VALID, of the PD, with the key and with the access; there is
at most one such region in the three pools; the call takes one reference to the region it
returns, and changes nothing else. -/
theorem lookup_mem_resolves (s₀ s : MrSys) (hinit : MrInit s₀) (hreach : Reach mrStep MrOk s₀ s)
    (pd access key : ℕ) (type : LookupType) (hkey : key ≠ 0) :
    (∀ r, (rxeLookupMem s pd access key type).1 = some r ↔ Resolves s pd access key type r) ∧
    (∀ r r', Resolves s pd access key type r → Resolves s pd access key type r' → r = r') ∧
    (∀ r, (rxeLookupMem s pd access key type).1 = some r → (rxeLookupMem s pd access key type).2 =
      s.withPool r.1 (rxeAddRef (s.pool r.1) r.2)) ∧
    ((rxeLookupMem s pd access key type).1 = none → (rxeLookupMem s pd access key type).2 = s) := by
  have h : MrInv s := hreach.inv (mrInit_inv hinit) fun _ _ _ h hok hstep => h.step hok hstep
  -- two regions that answer to one key have its index, and an index has one region
  have hunique : ∀ r r', Resolves s pd access key type r → Resolves s pd access key type r' →
      r = r' := by
    intro r r' hr hr'
    obtain ⟨hpool, hin, hat⟩ := hr.found h hkey
    obtain ⟨hpool', hin', hat'⟩ := hr'.found h hkey
    have hw : r.1 = r'.1 := Option.some.inj (hpool.symm.trans hpool')
    rw [← hw] at hin' hat'
    exact Prod.ext hw ((h.pools r.1).pool.index_inj hin hin' (hat.trans hat'.symm))
  rcases h.lookup pd access type hkey with ⟨r, hr, heq⟩ | ⟨hno, heq⟩
  · rw [heq]
    refine ⟨fun r' => ⟨?_, fun hr' => congrArg some (hunique r r' hr hr')⟩, hunique, ?_, nofun⟩
    · rintro ⟨⟩
      exact hr
    · rintro r' ⟨⟩
      rfl
  · rw [heq]
    exact ⟨fun r => ⟨nofun, fun hr => absurd hr (hno r)⟩, hunique, nofun, fun _ => rfl⟩

/-- A device with room for two regions of each kind. -/
def twoRegions : MrSys where
  pool
    | .mr => { maxElem := 2, minIndex := 1, maxIndex := 0x20000 }
    | .fmr => { maxElem := 2, minIndex := 0x20001, maxIndex := 0x40000 }
    | .mw => { maxElem := 2, minIndex := 0x40001, maxIndex := 0x60000 }

theorem twoRegions_init : MrInit twoRegions :=
  ⟨rfl, rfl, fun w => ⟨2, by cases w <;> rfl⟩⟩

/-- The steps of `rxe_get_dma_mr` with local and remote write access, on a region at address 5. -/
def getDmaMr : List MrAct :=
  [.pool .mr .enter, .pool .mr .count, .pool .mr (.zalloc 5 {}), .index .mr 5 id 9 (.dma 3),
    .init .mr 5, .finish .mr 5]

open Trace in
theorem getDmaMr_reach {s : MrSys} (h : getDmaMr.foldlM mrStep twoRegions = some s) :
    Reach mrStep MrOk twoRegions s := by
  refine Reach.foldlM getDmaMr (fun s a ha => ?_) .start h
  simp only [getDmaMr, List.mem_cons, List.not_mem_nil, or_false] at ha
  rcases ha with rfl | rfl | rfl | rfl | rfl | rfl
  · trivial
  · trivial
  · trivial
  · exact rebalances_id
  · trivial
  · trivial

/-- The first region gets the key 0x102, which then finds it. -/
theorem lookup_mem_first : ∃ s, getDmaMr.foldlM mrStep twoRegions = some s ∧
    (rxeLookupMem s 9 2 0x102 .remote).1 = some (.mr, 5) ∧
    (rxeLookupMem s 9 2 0x102 .remote).2 = s.withPool .mr (rxeAddRef (s.pool .mr) 5) := by
  refine ⟨_, rfl, ?_⟩
  have h := lookup_mem_resolves twoRegions _ twoRegions_init (getDmaMr_reach rfl) 9 2 0x102 .remote
    (by decide)
  have hfound := (h.1 (.mr, 5)).2 ⟨_, rfl, rfl, rfl, rfl, rfl, by decide⟩
  exact ⟨hfound, h.2.2.1 _ hfound⟩

/-- The index 1 then leads to the region, called 7 here, which its key finds. -/
theorem lookupMem_first : ∃ s, getDmaMr.foldlM mrStep twoRegions = some s ∧
    ∀ dev : Dev, (∀ i, (dev.index i).bind dev.mem = s.mem i) → dev.index 1 = some 7 →
      lookupMem dev 9 (some .remoteWrite) 0x102 .remote = some 7 := by
  refine ⟨_, rfl, fun dev hmem hname => ?_⟩
  have hpools := lookupMem_pools twoRegions _ twoRegions_init (getDmaMr_reach rfl) dev hmem 9 0x102
    (some .remoteWrite) .remote
  exact hpools.trans hname

end Rxe
