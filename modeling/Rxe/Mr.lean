/-
Memory regions and scatter/gather copies (`rxe_mr.c`).

A region (`Mem`) is a list of map blocks of physical buffers.  `memAddrs` walks
the buffers like `rxe_mem_copy` does and returns the addresses of the bytes of
the range in order; a copy reads or writes these addresses in the byte memory of
the device.  `copyDataWith` and `advanceDmaData` move the cursor
(`curSge`, `sgeOffset`, `resid`) of a work request over its SGE list.

On an error `copy_data` leaves `resid` and `sge_offset` alone, but the increments
of `cur_sge` it made before the error stay; `copyLoop` therefore returns `curSge`
in both cases.
-/
import Mathlib.Algebra.Ring.Nat
import Mathlib.Data.Int.Notation
import Mathlib.Tactic.Common

namespace Rxe

/-- Value of a `u32` read as an `int`. -/
def s32 (x : ℕ) : ℤ := Int.bmod x (2 ^ 32)

theorem s32_of_lt {x : ℕ} (h : x < 2 ^ 31) : s32 x = x :=
  Int.bmod_eq_of_le (by omega) (by omega)

theorem bmod_natCast_le (x m : ℕ) : Int.bmod x m ≤ x := by
  have hmod : (x : ℤ) % (m : ℤ) ≤ x := by
    have h := Nat.mod_le x m
    exact_mod_cast h
  rw [Int.bmod_eq_emod]
  split <;> omega

theorem s32_le (x : ℕ) : s32 x ≤ x := bmod_natCast_le x _

theorem s32_neg {x : ℕ} (hlo : 2 ^ 31 ≤ x) (hhi : x < 2 ^ 32) : s32 x < 0 :=
  (Int.bmod_neg_iff (by omega) (by omega)).2 (Or.inr (by omega))

theorem s32_of_nonneg {x : ℕ} (h : 0 ≤ s32 x) (hlt : x < 2 ^ 32) : s32 x = x := by
  refine s32_of_lt ?_
  by_contra hge
  have := s32_neg (not_lt.1 hge) hlt
  omega

inductive Errno
  | einval | enospc | efault
  deriving DecidableEq, Repr

/-- `struct ib_sge` -/
structure Sge where
  addr : ℕ
  length : ℕ
  lkey : ℕ
  deriving DecidableEq, Repr

/-- `struct rxe_dma_info`; `num_sge` is the length of `sge`. -/
structure DmaInfo where
  length : ℕ := 0
  resid : ℕ := 0
  curSge : ℕ := 0
  sgeOffset : ℕ := 0
  sge : List Sge := []
  inlineData : List UInt8 := []
  deriving DecidableEq, Repr

inductive MemState
  | zombie | invalid | free | valid
  deriving DecidableEq, Repr

inductive MemType
  | none | dma | mr | fmr | mw
  deriving DecidableEq, Repr

/-- One requested access right (`IB_ACCESS_*`). -/
inductive Access
  | localWrite | remoteWrite | remoteRead | remoteAtomic
  deriving DecidableEq, Repr

structure PhysBuf where
  addr : ℕ
  size : ℕ
  deriving DecidableEq, Repr

/-- `struct rxe_mem` -/
structure Mem where
  pd : ℕ
  lkey : ℕ
  rkey : ℕ
  state : MemState
  type : MemType
  iova : ℕ
  length : ℕ
  offset : ℕ
  access : List Access
  pageShift : ℕ
  pageMask : ℕ
  mapShift : ℕ
  mapMask : ℕ
  map : List (List PhysBuf)
  deriving DecidableEq, Repr

/-- What the QP code reads and writes of the device: the byte memory, the region objects and
the one that each pool index leads to, the bytes that a new skb happens to hold, the partition
keys and the capacity of the port. -/
structure Dev where
  byte : ℕ → UInt8 := fun _ => 0
  mem : ℕ → Option Mem := fun _ => none
  index : ℕ → Option ℕ := some
  fresh : ℕ → UInt8 := fun _ => 0
  pkeyTbl : ℕ → ℕ := fun _ => 0xffff
  mtuCap : ℕ := 4096

/-- The regions and the indices that lead to them. -/
def Dev.regions (dev : Dev) : (ℕ → Option ℕ) × (ℕ → Option Mem) := (dev.index, dev.mem)

inductive LookupType
  | local | remote
  deriving DecidableEq, Repr

/-- The checks of `lookup_mem` on the region that it finds. -/
def memAnswers (mem : Mem) (pd : ℕ) (access : Option Access) (key : ℕ) (type : LookupType) :
    Bool :=
  !((type = .local ∧ mem.lkey ≠ key) ∨ (type = .remote ∧ mem.rkey ≠ key) ∨ mem.pd ≠ pd ∨
    (∃ a ∈ access, a ∉ mem.access) ∨ mem.state ≠ .valid)

theorem memAnswers_iff {mem : Mem} {pd : ℕ} {access : Option Access} {key : ℕ}
    {type : LookupType} : memAnswers mem pd access key type ↔
      ¬ ((type = .local ∧ mem.lkey ≠ key) ∨ (type = .remote ∧ mem.rkey ≠ key)) ∧ mem.pd = pd ∧
        (¬ ∃ a ∈ access, a ∉ mem.access) ∧ mem.state = .valid := by
  simp only [memAnswers, Bool.not_eq_true', decide_eq_false_iff_not, not_or, not_not, and_assoc]

/-- `lookup_mem`: the region that the index in the key leads to, if it passes the checks. -/
def lookupMem (dev : Dev) (pd : ℕ) (access : Option Access) (key : ℕ) (type : LookupType) :
    Option ℕ :=
  let index := key / 2 ^ 8
  -- the MR, FMR and MW pools cover consecutive index ranges
  if 1 ≤ index ∧ index ≤ 0x60000 then
    (dev.index index).filter fun m =>
      (dev.mem m).any fun mem => memAnswers mem pd access key type
  else none

/-- `mem_check_range`: `true` where the driver returns 0. -/
def memCheckRange (mem : Mem) (iova length : ℕ) : Bool :=
  match mem.type with
  | .dma => true
  | .mr | .fmr =>
    !(iova < mem.iova || (mem.iova + mem.length) % 2 ^ 64 < (iova + length) % 2 ^ 64)
  | _ => false

/-- `RXE_BUF_PER_MAP` for a 4 KiB page. -/
def bufPerMap : ℕ := 256

def Mem.buf (mem : Mem) (m n : ℕ) : Option PhysBuf := (mem.map[m]?).bind (·[n]?)

/-- The linear scan of `lookup_iova`, over at most `fuel` buffers. -/
def scanIova (mem : Mem) : ℕ → ℕ → ℕ → ℕ → Option (ℕ × ℕ × ℕ)
  | 0, _, _, _ => none
  | fuel + 1, m, n, offset =>
    match mem.buf m n with
    | none => none
    | some buf =>
      if offset < buf.size then some (m, n, offset)
      else if n + 1 = bufPerMap then scanIova mem fuel (m + 1) 0 (offset - buf.size)
      else scanIova mem fuel m (n + 1) (offset - buf.size)

/-- `lookup_iova`: map block, buffer and offset of an address of the region. -/
def lookupIova (mem : Mem) (iova : ℕ) : Option (ℕ × ℕ × ℕ) :=
  let offset := (iova + 2 ^ 64 - mem.iova + mem.offset) % 2 ^ 64
  if mem.pageShift ≠ 0 then
    let page := offset >>> mem.pageShift
    some (page >>> mem.mapShift, page &&& mem.mapMask, offset &&& mem.pageMask)
  else scanIova mem (mem.map.flatten.length + 1) 0 0 offset

/-- The buffer loop of `rxe_mem_copy`: addresses of `length` bytes from buffer `(m, i)`. -/
def bufAddrs (mem : Mem) : ℕ → ℕ → ℕ → ℕ → ℕ → Option (List ℕ)
  | _, _, _, _, 0 => some []
  | 0, _, _, _, _ + 1 => none
  | fuel + 1, m, i, offset, length + 1 =>
    match mem.buf m i with
    | none => none
    | some buf =>
      let bytes := min (buf.size - offset) (length + 1)
      let next := if i + 1 = bufPerMap then (m + 1, 0) else (m, i + 1)
      (bufAddrs mem fuel next.1 next.2 0 (length + 1 - bytes)).map
        ((List.range bytes).map (buf.addr + offset + ·) ++ ·)

/-- Addresses of the bytes `[iova, iova + length)` of a region, in order. -/
def memAddrs (mem : Mem) (iova length : ℕ) : Except Errno (List ℕ) :=
  if mem.type = .dma then .ok ((List.range length).map (iova + ·))
  else if memCheckRange mem iova length = false then .error .efault
  else
    match lookupIova mem iova with
    | none => .error .efault
    | some (m, i, offset) =>
      match bufAddrs mem (length + mem.map.flatten.length) m i offset length with
      | none => .error .efault
      | some addrs => .ok addrs

/-- Store the bytes `data` at the addresses `addrs`. -/
def writeBytes (byte : ℕ → UInt8) : List ℕ → List UInt8 → ℕ → UInt8
  | a :: addrs, d :: data => writeBytes (Function.update byte a d) addrs data
  | _, _ => byte

theorem writeBytes_of_not_mem {x : ℕ} : ∀ (addrs : List ℕ) (data : List UInt8) (byte : ℕ → UInt8),
    x ∉ addrs → writeBytes byte addrs data x = byte x := by
  intro addrs
  induction addrs with
  | nil =>
    intro data byte _
    rfl
  | cons a addrs ih =>
    intro data byte hx
    cases data with
    | nil => rfl
    | cons d data =>
      rw [List.mem_cons, not_or] at hx
      rw [writeBytes, ih data _ hx.2, Function.update_of_ne hx.1]

/-- `rxe_mem_copy` with `direction_out`. -/
def rxeMemCopyOut (dev : Dev) (mem : Mem) (iova length : ℕ) : Except Errno (List UInt8) :=
  match memAddrs mem iova length with
  | .error e => .error e
  | .ok addrs => .ok (addrs.map dev.byte)

/-- `rxe_mem_copy` with `direction_in`. -/
def rxeMemCopyIn (dev : Dev) (mem : Mem) (iova : ℕ) (data : List UInt8) : Except Errno Dev :=
  match memAddrs mem iova data.length with
  | .error e => .error e
  | .ok addrs => .ok { dev with byte := writeBytes dev.byte addrs data }

/-- Where a walk over an SGE list stopped. -/
structure Cursor where
  curSge : ℕ
  sgeOffset : ℕ
  resid : ℕ
  deriving DecidableEq, Repr

section CopyData

variable {σ : Type}

/-- The loop of `copy_data` from the SGE at the head of the list.  `act` looks up
the key and copies one piece; it is given the key, the address and the size.
The result is `dma->cur_sge`, what the pieces copied so far have done, and the
cursor or the error. -/
def copyLoop (act : σ → ℕ → ℕ → ℕ → Except Errno σ) :
    List Sge → ℕ → ℕ → ℕ → ℕ → σ → ℕ × σ × Except Errno Cursor
  | [], cur, offset, resid, length, s =>
    if length = 0 then (cur, s, .ok ⟨cur, offset, resid⟩) else (cur, s, .error .enospc)
  | sge :: rest, cur, offset, resid, length, s =>
    if length = 0 then (cur, s, .ok ⟨cur, offset, resid⟩)
    else if sge.length ≤ offset then copyLoop act rest (cur + 1) 0 resid length s
    else
      let bytes := min length (sge.length - offset)
      match act s sge.lkey (sge.addr + offset) bytes with
      | .error e => (cur, s, .error e)
      | .ok s' =>
        if length = bytes then (cur, s', .ok ⟨cur, offset + bytes, resid - bytes⟩)
        else copyLoop act rest (cur + 1) 0 (resid - bytes) (length - bytes) s'

/-- `copy_data` for a given way of copying one piece. -/
def copyDataWith (act : σ → ℕ → ℕ → ℕ → Except Errno σ) (dma : DmaInfo) (length : ℕ) (s : σ) :
    DmaInfo × σ × Except Errno Unit :=
  if length = 0 then (dma, s, .ok ())
  else if s32 dma.resid < length then (dma, s, .error .einval)
  else
    match copyLoop act (dma.sge.drop dma.curSge) dma.curSge dma.sgeOffset dma.resid length s with
    | (cur, s', .error e) => ({ dma with curSge := cur }, s', .error e)
    | (_, s', .ok c) =>
      ({ dma with curSge := c.curSge, sgeOffset := c.sgeOffset, resid := c.resid }, s', .ok ())

theorem copyLoop_resid (act : σ → ℕ → ℕ → ℕ → Except Errno σ) (sges : List Sge) :
    ∀ {cur offset resid length : ℕ} {s s' : σ} {cur' : ℕ} {r : Cursor},
      copyLoop act sges cur offset resid length s = (cur', s', .ok r) →
      r.resid = resid - length := by
  induction sges with
  | nil =>
    intro cur offset resid length s s' cur' r h
    unfold copyLoop at h
    split at h
    · next hzero =>
      cases h
      simp [hzero]
    · cases h
  | cons sge rest ih =>
    intro cur offset resid length s s' cur' r h
    unfold copyLoop at h
    split at h
    · next hzero =>
      cases h
      simp [hzero]
    · split at h
      · exact ih h
      · dsimp only at h
        split at h
        · cases h
        · split at h
          · next hlast =>
            cases h
            show resid - min length (sge.length - offset) = _
            rw [← hlast]
          · rw [ih h]
            omega

theorem copyDataWith_ok {act : σ → ℕ → ℕ → ℕ → Except Errno σ} {dma dma' : DmaInfo} {length : ℕ}
    {s s' : σ} (h : copyDataWith act dma length s = (dma', s', .ok ())) :
    dma'.resid + length = dma.resid ∧ dma'.length = dma.length := by
  unfold copyDataWith at h
  split at h
  · next hzero =>
    cases h
    simp [hzero]
  · split at h
    · cases h
    · next hle =>
      split at h
      · cases h
      · next hloop =>
        cases h
        refine ⟨?_, rfl⟩
        have hresid := copyLoop_resid act _ hloop
        have hs32 := s32_le dma.resid
        dsimp only
        omega

end CopyData

/-- One piece of a gather: append the bytes of the region. -/
def gatherPiece (dev : Dev) (pd : ℕ) (access : Option Access) (data : List UInt8)
    (lkey iova bytes : ℕ) : Except Errno (List UInt8) :=
  match (lookupMem dev pd access lkey .local).bind dev.mem with
  | none => .error .einval
  | some mem =>
    match rxeMemCopyOut dev mem iova bytes with
    | .error e => .error e
    | .ok piece => .ok (data ++ piece)

/-- One piece of a scatter: store the next bytes of the data into the region. -/
def scatterPiece (pd : ℕ) (access : Option Access) (s : Dev × List UInt8)
    (lkey iova bytes : ℕ) : Except Errno (Dev × List UInt8) :=
  match (lookupMem s.1 pd access lkey .local).bind s.1.mem with
  | none => .error .einval
  | some mem =>
    match rxeMemCopyIn s.1 mem iova (s.2.take bytes) with
    | .error e => .error e
    | .ok dev => .ok (dev, s.2.drop bytes)

/-- `copy_data` with `direction_out`. -/
def copyDataOut (dev : Dev) (pd : ℕ) (access : Option Access) (dma : DmaInfo) (length : ℕ) :
    DmaInfo × List UInt8 × Except Errno Unit :=
  copyDataWith (gatherPiece dev pd access) dma length []

/-- `copy_data` with `direction_in`; the pieces stored before an error stay in memory. -/
def copyDataIn (dev : Dev) (pd : ℕ) (access : Option Access) (dma : DmaInfo)
    (data : List UInt8) : DmaInfo × Dev × Except Errno Unit :=
  match copyDataWith (scatterPiece pd access) dma data.length (dev, data) with
  | (dma', s, r) => (dma', s.1, r)

/-- The loop of `advance_dma_data`. -/
def advanceLoop : List Sge → ℕ → ℕ → ℕ → ℕ → ℕ × Except Errno Cursor
  | [], cur, offset, resid, length =>
    if length = 0 then (cur, .ok ⟨cur, offset, resid⟩) else (cur, .error .enospc)
  | sge :: rest, cur, offset, resid, length =>
    if length = 0 then (cur, .ok ⟨cur, offset, resid⟩)
    else if sge.length ≤ offset then advanceLoop rest (cur + 1) 0 resid length
    else
      let bytes := min length (sge.length - offset)
      if length = bytes then (cur, .ok ⟨cur, offset + bytes, resid - bytes⟩)
      else advanceLoop rest (cur + 1) 0 (resid - bytes) (length - bytes)

/-- `advance_dma_data` -/
def advanceDmaData (dma : DmaInfo) (length : ℕ) : DmaInfo :=
  match advanceLoop (dma.sge.drop dma.curSge) dma.curSge dma.sgeOffset dma.resid length with
  | (cur, .error _) => { dma with curSge := cur }
  | (_, .ok c) => { dma with curSge := c.curSge, sgeOffset := c.sgeOffset, resid := c.resid }

theorem advanceLoop_of_copyLoop {σ : Type} {act : σ → ℕ → ℕ → ℕ → Except Errno σ}
    {sges : List Sge} {cur offset resid length : ℕ} {s s' : σ} {cur' : ℕ} {r : Cursor}
    (h : copyLoop act sges cur offset resid length s = (cur', s', .ok r)) :
    advanceLoop sges cur offset resid length = (cur', .ok r) := by
  fun_induction copyLoop act sges cur offset resid length s with
  | case1 | case3 =>
    cases h
    rfl
  | case2 | case5 => cases h
  -- both loops go to the next SGE, or by the same part of this one
  | case4 _ _ _ _ _ _ _ hzero hoff ih =>
    rw [advanceLoop, if_neg hzero, if_pos hoff]
    exact ih h
  | case6 _ _ _ _ _ _ _ hzero hoff _ _ _ hlast =>
    cases h
    rw [advanceLoop, if_neg hzero, if_neg hoff]
    exact if_pos hlast
  | case7 _ _ _ _ _ _ _ hzero hoff _ _ _ hlast ih =>
    rw [advanceLoop, if_neg hzero, if_neg hoff]
    exact (if_neg hlast).trans (ih h)

theorem advanceDmaData_of_copy {σ : Type} {act : σ → ℕ → ℕ → ℕ → Except Errno σ}
    {dma dma' : DmaInfo} {length : ℕ} {s s' : σ}
    (h : copyDataWith act dma length s = (dma', s', .ok ())) :
    advanceDmaData dma length = dma' := by
  unfold copyDataWith at h
  unfold advanceDmaData
  split at h
  · next hzero =>
    cases h
    rw [hzero]
    cases dma.sge.drop dma.curSge <;> rfl
  · split at h
    · cases h
    · split at h
      · cases h
      · next hloop =>
        cases h
        rw [advanceLoop_of_copyLoop hloop]

/-- Bytes of an SGE list from an offset into its first element on. -/
def sgeAvail : List Sge → ℕ → ℕ
  | [], _ => 0
  | sge :: rest, offset => sge.length - offset + (rest.map Sge.length).sum

theorem sgeAvail_zero (sges : List Sge) : sgeAvail sges 0 = (sges.map Sge.length).sum := by
  cases sges <;> rfl

end Rxe
