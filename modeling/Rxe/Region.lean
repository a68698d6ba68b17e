/-
The layout of a memory region.

A region is a sequence of physical buffers, kept in map blocks of `bufPerMap` entries.
`Mem.addrOf` is the address of one byte of it, read off the concatenation of the buffers.
`rxe_mem_copy` finds the first buffer by shifts and masks, or by a scan, and then walks from
buffer to buffer; on a region laid out as the registration functions do it (`Mem.Laid`) the
addresses of a range are those of its bytes:

* `memAddrs_addrOf`
-/
import Rxe.Mr

namespace Rxe

/-- The addresses of the bytes of some buffers, in order. -/
def bufBytes (bufs : List PhysBuf) : List ℕ :=
  bufs.flatMap fun b => (List.range b.size).map (b.addr + ·)

/-- The buffers of a region. -/
def Mem.bufs (mem : Mem) : List PhysBuf := mem.map.flatten

/-- The address of a byte of a region. -/
def Mem.addrOf (mem : Mem) (iova : ℕ) : Option ℕ :=
  if mem.type = .dma then some iova else (bufBytes mem.bufs)[iova - mem.iova + mem.offset]?

/-- The layout the registration functions set up: full map blocks, one size for all buffers
where there is a page shift, and addresses that do not wrap. -/
structure Mem.Laid (mem : Mem) : Prop where
  buf : ∀ m n, n < bufPerMap → mem.buf m n = mem.bufs[m * bufPerMap + n]?
  mapShift : mem.mapShift = 8
  mapMask : mem.mapMask = 2 ^ 8 - 1
  page : mem.pageShift ≠ 0 → mem.pageMask = 2 ^ mem.pageShift - 1 ∧
    ∀ b ∈ mem.bufs, b.size = 2 ^ mem.pageShift
  iova_lt : mem.iova + mem.length < 2 ^ 64
  offset_lt : mem.offset + mem.length < 2 ^ 64

theorem bufBytes_cons (b : PhysBuf) (bufs : List PhysBuf) :
    bufBytes (b :: bufs) = (List.range b.size).map (b.addr + ·) ++ bufBytes bufs :=
  List.flatMap_cons ..

/-- A part of one buffer. -/
theorem buf_drop_take (addr size offset n : ℕ) :
    (((List.range size).map (addr + ·)).drop offset).take n =
      (List.range (min (size - offset) n)).map (addr + offset + ·) := by
  refine List.ext_getElem ?_ fun i h₁ h₂ => ?_
  · simp [Nat.min_comm]
  · simp [Nat.add_assoc]

/-- The buffer behind `(m, i)`. -/
theorem next_index {m i : ℕ} (hi : i < bufPerMap) :
    (if i + 1 = bufPerMap then (m + 1, 0) else (m, i + 1)).2 < bufPerMap ∧
      (if i + 1 = bufPerMap then (m + 1, 0) else (m, i + 1)).1 * bufPerMap +
        (if i + 1 = bufPerMap then (m + 1, 0) else (m, i + 1)).2 = m * bufPerMap + i + 1 := by
  unfold bufPerMap at hi ⊢
  split
  · constructor
    · omega
    · omega
  · constructor
    · omega
    · omega

section Walk

variable {mem : Mem} (h : mem.Laid)

include h

theorem bufAddrs_eq :
    ∀ {fuel m i offset length : ℕ} {addrs : List ℕ}, i < bufPerMap →
      (∀ b, mem.bufs[m * bufPerMap + i]? = some b → offset ≤ b.size) →
      bufAddrs mem fuel m i offset length = some addrs →
      addrs.length = length ∧
        addrs = ((bufBytes (mem.bufs.drop (m * bufPerMap + i))).drop offset).take length := by
  intro fuel
  induction fuel with
  | zero =>
    intro m i offset length addrs hi hoff haddrs
    cases length with
    | zero =>
      cases haddrs
      exact ⟨rfl, rfl⟩
    | succ length => cases haddrs
  | succ fuel ih =>
    intro m i offset length addrs hi hoff haddrs
    cases length with
    | zero =>
      cases haddrs
      exact ⟨rfl, rfl⟩
    | succ length =>
      unfold bufAddrs at haddrs
      rw [h.buf m i hi] at haddrs
      cases hb : mem.bufs[m * bufPerMap + i]? with
      | none =>
        rw [hb] at haddrs
        cases haddrs
      | some b =>
        rw [hb] at haddrs
        obtain ⟨rest, hrest, rfl⟩ := Option.map_eq_some_iff.1 haddrs
        obtain ⟨hnext, hindex⟩ := next_index (m := m) hi
        obtain ⟨hlen, heq⟩ := ih hnext (fun b' _ => Nat.zero_le _) hrest
        -- the bytes up to the end of this buffer, and those of the walk from the next one on
        have hdrop : mem.bufs.drop (m * bufPerMap + i) =
            b :: mem.bufs.drop (m * bufPerMap + i + 1) :=
          List.drop_eq_getElem?_toList_append.trans (by rw [hb]; rfl)
        have hle := hoff b hb
        refine ⟨?_, ?_⟩
        · rw [List.length_append, hlen, List.length_map, List.length_range]
          omega
        · rw [heq, hindex, hdrop, bufBytes_cons, List.drop_append_of_le_length (by simpa using hle),
            List.take_append, buf_drop_take, List.drop_zero]
          congr 2
          simp only [List.length_drop, List.length_map, List.length_range]
          omega

theorem scanIova_eq :
    ∀ {fuel m n offset m' n' offset' : ℕ}, n < bufPerMap →
      scanIova mem fuel m n offset = some (m', n', offset') →
      n' < bufPerMap ∧ (∀ b, mem.bufs[m' * bufPerMap + n']? = some b → offset' ≤ b.size) ∧
        (bufBytes (mem.bufs.drop (m' * bufPerMap + n'))).drop offset' =
          (bufBytes (mem.bufs.drop (m * bufPerMap + n))).drop offset := by
  intro fuel
  induction fuel with
  | zero =>
    intro m n offset m' n' offset' _ hscan
    cases hscan
  | succ fuel ih =>
    intro m n offset m' n' offset' hn hscan
    unfold scanIova at hscan
    rw [h.buf m n hn] at hscan
    cases hb : mem.bufs[m * bufPerMap + n]? with
    | none =>
      rw [hb] at hscan
      cases hscan
    | some b =>
      rw [hb] at hscan
      dsimp only at hscan
      split at hscan
      · next hlt =>
        cases hscan
        refine ⟨hn, fun b' hb' => ?_, rfl⟩
        rw [hb] at hb'
        cases hb'
        exact Nat.le_of_lt hlt
      · next hge =>
        obtain ⟨hnext, hindex⟩ := next_index (m := m) hn
        have hdrop : mem.bufs.drop (m * bufPerMap + n) =
            b :: mem.bufs.drop (m * bufPerMap + n + 1) :=
          List.drop_eq_getElem?_toList_append.trans (by rw [hb]; rfl)
        -- the whole buffer lies before the offset
        have hskip : (bufBytes (mem.bufs.drop (m * bufPerMap + n))).drop offset =
            (bufBytes (mem.bufs.drop (m * bufPerMap + n + 1))).drop (offset - b.size) := by
          rw [hdrop, bufBytes_cons, List.drop_append, List.drop_eq_nil_of_le (by simpa using hge),
            List.nil_append, List.length_map, List.length_range]
        rw [hskip, ← hindex]
        split at hscan
        · next hfull =>
          rw [if_pos hfull] at hnext ⊢
          exact ih hnext hscan
        · next hfull =>
          rw [if_neg hfull] at hnext ⊢
          exact ih hnext hscan

omit h in
theorem bufBytes_drop {size : ℕ} (bufs : List PhysBuf) (hsize : ∀ b ∈ bufs, b.size = size) :
    ∀ k, bufBytes (bufs.drop k) = (bufBytes bufs).drop (k * size) := by
  induction bufs with
  | nil =>
    intro k
    simp [bufBytes]
  | cons b bufs ih =>
    intro k
    cases k with
    | zero => simp
    | succ k =>
      have hlen : ((List.range b.size).map (b.addr + ·)).length = size := by
        simp [hsize b List.mem_cons_self]
      have hskip : ((List.range b.size).map (b.addr + ·)).drop (size + k * size) = [] :=
        List.drop_eq_nil_of_le (by rw [hlen]; exact Nat.le_add_right _ _)
      rw [List.drop_succ_cons, ih (fun b' hb' => hsize b' (List.mem_cons_of_mem b hb')) k,
        bufBytes_cons, Nat.succ_mul, Nat.add_comm, List.drop_append, hlen, Nat.add_sub_cancel_left,
        hskip, List.nil_append]

theorem lookupIova_eq {iova m n offset : ℕ} (hlo : mem.iova ≤ iova)
    (hhi : iova ≤ mem.iova + mem.length) (hlookup : lookupIova mem iova = some (m, n, offset)) :
    n < bufPerMap ∧ (∀ b, mem.bufs[m * bufPerMap + n]? = some b → offset ≤ b.size) ∧
      (bufBytes (mem.bufs.drop (m * bufPerMap + n))).drop offset =
        (bufBytes mem.bufs).drop (iova - mem.iova + mem.offset) := by
  have hiova := h.iova_lt
  have hoffset := h.offset_lt
  have ho : (iova + 2 ^ 64 - mem.iova + mem.offset) % 2 ^ 64 = iova - mem.iova + mem.offset := by
    omega
  unfold lookupIova at hlookup
  rw [ho] at hlookup
  dsimp only at hlookup
  split at hlookup
  · next hpage =>
    obtain ⟨hmask, hsize⟩ := h.page hpage
    rw [hmask, h.mapShift, h.mapMask, Nat.and_two_pow_sub_one_eq_mod,
      Nat.and_two_pow_sub_one_eq_mod, Nat.shiftRight_eq_div_pow, Nat.shiftRight_eq_div_pow]
      at hlookup
    cases hlookup
    generalize iova - mem.iova + mem.offset = o
    have hflat : o / 2 ^ mem.pageShift / 2 ^ 8 * bufPerMap + o / 2 ^ mem.pageShift % 2 ^ 8 =
        o / 2 ^ mem.pageShift := by
      unfold bufPerMap
      omega
    refine ⟨Nat.mod_lt _ (by decide), fun b hb => ?_, ?_⟩
    · rw [hsize b (List.mem_of_getElem? hb)]
      exact Nat.le_of_lt (Nat.mod_lt _ (Nat.two_pow_pos _))
    · rw [hflat, bufBytes_drop mem.bufs hsize, List.drop_drop]
      congr 1
      exact Nat.div_add_mod' o _
  · obtain ⟨hn, hle, heq⟩ := scanIova_eq h (by decide) hlookup
    exact ⟨hn, hle, by simpa using heq⟩

/-- The addresses of a range are those of its bytes. -/
theorem memAddrs_addrOf {iova n : ℕ} {addrs : List ℕ} (hwrap : iova + n < 2 ^ 64)
    (hok : memAddrs mem iova n = .ok addrs) :
    addrs.length = n ∧ ∀ i < n, mem.addrOf (iova + i) = addrs[i]? := by
  unfold memAddrs at hok
  unfold Mem.addrOf
  split at hok
  · next hdma =>
    cases hok
    refine ⟨by simp, fun i hi => ?_⟩
    rw [if_pos hdma, List.getElem?_map, List.getElem?_range hi]
    rfl
  · next hdma =>
    split at hok
    · cases hok
    · next hrange =>
      -- without wrapping, the range check says that the range is inside
      obtain ⟨hlo, hhi⟩ : mem.iova ≤ iova ∧ iova + n ≤ mem.iova + mem.length := by
        have hiova := h.iova_lt
        unfold memCheckRange at hrange
        split at hrange
        · next htype => exact absurd htype hdma
        all_goals
          simp only [Bool.not_eq_false, Bool.not_eq_true', Bool.or_eq_false_iff,
            decide_eq_false_iff_not, not_true_eq_false] at hrange
        all_goals
          omega
      split at hok
      · cases hok
      · next m i offset hlookup =>
        split at hok
        · cases hok
        · next haddrs =>
          cases hok
          obtain ⟨hi, hle, hdrop⟩ := lookupIova_eq h hlo (by omega) hlookup
          obtain ⟨hlen, heq⟩ := bufAddrs_eq h hi hle haddrs
          refine ⟨hlen, fun k hk => ?_⟩
          rw [if_neg hdma, heq, hdrop, List.getElem?_take_of_lt hk, List.getElem?_drop]
          congr 1
          omega

end Walk

theorem bufAddrs_length {mem : Mem} : ∀ {fuel m i offset n : ℕ} {addrs : List ℕ},
    bufAddrs mem fuel m i offset n = some addrs → addrs.length = n := by
  intro fuel
  induction fuel with
  | zero =>
    intro m i offset n addrs h
    cases n with
    | zero =>
      cases h
      rfl
    | succ n => cases h
  | succ fuel ih =>
    intro m i offset n addrs h
    cases n with
    | zero =>
      cases h
      rfl
    | succ n =>
      unfold bufAddrs at h
      split at h
      · cases h
      · obtain ⟨rest, hrest, rfl⟩ := Option.map_eq_some_iff.1 h
        rw [List.length_append, List.length_map, List.length_range, ih hrest]
        omega

theorem memAddrs_length {mem : Mem} {iova n : ℕ} {addrs : List ℕ}
    (h : memAddrs mem iova n = .ok addrs) : addrs.length = n := by
  unfold memAddrs at h
  split at h
  · cases h
    rw [List.length_map, List.length_range]
  · split at h
    · cases h
    · split at h
      · cases h
      · split at h
        · cases h
        · next haddrs =>
          cases h
          exact bufAddrs_length haddrs

end Rxe
