/-
Receive buffers.

The SGE list of a WQE is one buffer: `bufAddr` is the address of the byte at a position of
it.  The cursor of the WQE stands at a position (`DmaInfo.At`), `copy_data` moves it by the
bytes copied, and what it copies is stored at the positions it moves over:

* `copyDataIn_at` — the cursor after a copy;
* `copyDataIn_filled` — a buffer that starts with `P` starts with `P ++ data` after `data`
  was copied, if no two of its positions share an address;
* `copyDataIn_usable` — a copy into a usable buffer with enough room succeeds.
-/
import Mathlib.Data.List.Nodup
import Rxe.Region

namespace Rxe

/-! ### Positions -/

/-- The SGE with the byte at a position, and the offset of the byte in it. -/
def sgeAt : List Sge → ℕ → Option (Sge × ℕ)
  | [], _ => none
  | sge :: rest, p => if p < sge.length then some (sge, p) else sgeAt rest (p - sge.length)

/-- The region a local key gives write access to. -/
def localMem (dev : Dev) (pd lkey : ℕ) : Option Mem :=
  (lookupMem dev pd (some .localWrite) lkey .local).bind dev.mem

/-- The address of the byte at a position of a receive buffer. -/
def bufAddr (dev : Dev) (pd : ℕ) (sges : List Sge) (p : ℕ) : Option ℕ :=
  (sgeAt sges p).bind fun (sge, o) => (localMem dev pd sge.lkey).bind (·.addrOf (sge.addr + o))

/-- Bytes in front of an SGE. -/
def sgeSum (sges : List Sge) : ℕ := (sges.map Sge.length).sum

/-- The buffer starts with some bytes. -/
def Filled (dev : Dev) (pd : ℕ) (sges : List Sge) (data : List UInt8) : Prop :=
  ∀ p d, data[p]? = some d → ∃ a, bufAddr dev pd sges p = some a ∧ dev.byte a = d

/-- A buffer of real memory: regions as they are registered, SGEs that do not wrap, and no two
positions with the same address. -/
structure BufOk (dev : Dev) (pd : ℕ) (sges : List Sge) : Prop where
  laid : ∀ sge ∈ sges, ∀ mem, localMem dev pd sge.lkey = some mem → mem.Laid
  plain : ∀ sge ∈ sges, sge.addr + sge.length < 2 ^ 64
  disjoint : ∀ p q a, bufAddr dev pd sges p = some a → bufAddr dev pd sges q = some a → p = q

theorem sgeAt_append (pre : List Sge) (sge : Sge) (rest : List Sge) {o : ℕ} (ho : o < sge.length) :
    sgeAt (pre ++ sge :: rest) (sgeSum pre + o) = some (sge, o) := by
  induction pre with
  | nil =>
    rw [List.nil_append, sgeAt, sgeSum]
    simp [ho]
  | cons s pre ih =>
    have hsum : sgeSum (s :: pre) = s.length + sgeSum pre := List.sum_cons
    rw [List.cons_append, sgeAt, if_neg (by omega), hsum,
      show s.length + sgeSum pre + o - s.length = sgeSum pre + o by omega]
    exact ih

theorem sgeSum_append (pre : List Sge) (sge : Sge) :
    sgeSum (pre ++ [sge]) = sgeSum pre + sge.length := by
  unfold sgeSum
  rw [List.map_append, List.sum_append]
  rfl

theorem localMem_congr {dev dev' : Dev} (h : dev'.regions = dev.regions) (pd lkey : ℕ) :
    localMem dev' pd lkey = localMem dev pd lkey := by
  obtain ⟨hindex, hmem⟩ := Prod.mk.inj h
  unfold localMem lookupMem
  rw [hindex, hmem]

theorem sgeAt_mem {sges : List Sge} : ∀ {p : ℕ} {sge : Sge} {o : ℕ}, sgeAt sges p = some (sge, o) →
    sge ∈ sges := by
  induction sges with
  | nil =>
    intro p sge o h
    cases h
  | cons s sges ih =>
    intro p sge o h
    unfold sgeAt at h
    split at h
    · cases h
      exact List.mem_cons_self
    · exact List.mem_cons_of_mem s (ih h)

section Congr

variable {dev dev' : Dev} {pd : ℕ} {sges : List Sge} {P : List UInt8}

theorem bufAddr_congr (h : ∀ sge ∈ sges, localMem dev' pd sge.lkey = localMem dev pd sge.lkey) :
    bufAddr dev' pd sges = bufAddr dev pd sges := by
  funext p
  unfold bufAddr
  cases hat : sgeAt sges p with
  | none => rfl
  | some at_ =>
    obtain ⟨sge, o⟩ := at_
    rw [Option.bind_some, Option.bind_some]
    dsimp only
    rw [h sge (sgeAt_mem hat)]

theorem BufOk.congr (hok : BufOk dev pd sges)
    (h : ∀ sge ∈ sges, localMem dev' pd sge.lkey = localMem dev pd sge.lkey) :
    BufOk dev' pd sges where
  laid sge hsge mem hmem := hok.laid sge hsge mem (h sge hsge ▸ hmem)
  plain := hok.plain
  disjoint := by
    rw [bufAddr_congr h]
    exact hok.disjoint

theorem Filled.congr (hfilled : Filled dev pd sges P)
    (h : ∀ sge ∈ sges, localMem dev' pd sge.lkey = localMem dev pd sge.lkey)
    (hbyte : ∀ p a, bufAddr dev pd sges p = some a → dev'.byte a = dev.byte a) :
    Filled dev' pd sges P := by
  intro p d hd
  obtain ⟨a, ha, hd⟩ := hfilled p d hd
  exact ⟨a, by rw [bufAddr_congr h]; exact ha, (hbyte p a ha).trans hd⟩

end Congr

/-! ### Storing bytes -/

theorem writeBytes_of_nodup {addrs : List ℕ} (hnodup : addrs.Nodup) :
    ∀ {byte : ℕ → UInt8} {data : List UInt8} {i a : ℕ} {d : UInt8}, addrs[i]? = some a →
      data[i]? = some d → writeBytes byte addrs data a = d := by
  induction addrs with
  | nil =>
    intro byte data i a d ha _
    cases ha
  | cons b addrs ih =>
    intro byte data i a d ha hd
    rw [List.nodup_cons] at hnodup
    cases data with
    | nil => cases hd
    | cons e data =>
      rw [writeBytes]
      cases i with
      | zero =>
        cases ha
        cases hd
        rw [writeBytes_of_not_mem _ _ _ hnodup.1, Function.update_self]
      | succ i => exact ih hnodup.2 ha hd

theorem scatterPiece_filled {dev : Dev} {pd : ℕ} {pre rest : List Sge} {sge : Sge}
    {offset bytes : ℕ} {P data : List UInt8} {s' : Dev × List UInt8}
    (hok : BufOk dev pd (pre ++ sge :: rest)) (hfilled : Filled dev pd (pre ++ sge :: rest) P)
    (hP : P.length = sgeSum pre + offset) (hroom : offset + bytes ≤ sge.length)
    (hdata : bytes ≤ data.length)
    (hpiece : scatterPiece pd (some .localWrite) (dev, data) sge.lkey (sge.addr + offset) bytes =
      .ok s') :
    s'.2 = data.drop bytes ∧ s'.1.regions = dev.regions ∧
      Filled s'.1 pd (pre ++ sge :: rest) (P ++ data.take bytes) := by
  unfold scatterPiece at hpiece
  split at hpiece
  · cases hpiece
  · next mem hmem =>
    split at hpiece
    · cases hpiece
    · next dev' hcopy =>
      cases hpiece
      unfold rxeMemCopyIn at hcopy
      split at hcopy
      · cases hcopy
      · next addrs haddrs =>
        cases hcopy
        refine ⟨rfl, rfl, ?_⟩
        have hlen : (data.take bytes).length = bytes := List.length_take_of_le hdata
        rw [hlen] at haddrs
        have hplain := hok.plain sge (by simp)
        obtain ⟨hn, haddr⟩ := memAddrs_addrOf (hok.laid sge (by simp) mem hmem) (by omega) haddrs
        -- the addresses written are those of the positions behind `P`
        have hpos : ∀ k < bytes,
            bufAddr dev pd (pre ++ sge :: rest) (P.length + k) = addrs[k]? := by
          intro k hk
          unfold bufAddr
          rw [hP, Nat.add_assoc, sgeAt_append pre sge rest (by omega), Option.bind_some]
          dsimp only
          rw [show localMem dev pd sge.lkey = some mem from hmem, Option.bind_some, ← Nat.add_assoc]
          exact haddr k hk
        have hnodup : addrs.Nodup := by
          refine List.nodup_iff_getElem?_ne_getElem?.2 fun j k hjk hk heq => ?_
          have hj := hpos j (by omega)
          rw [heq, ← hpos k (by omega)] at hj
          obtain ⟨a, ha⟩ : ∃ a, bufAddr dev pd (pre ++ sge :: rest) (P.length + k) = some a :=
            ⟨_, (hpos k (by omega)).trans (List.getElem?_eq_getElem hk)⟩
          have := hok.disjoint _ _ a (hj.trans ha) ha
          omega
        intro p d hd
        show ∃ a, bufAddr dev pd (pre ++ sge :: rest) p = some a ∧
          writeBytes dev.byte addrs (data.take bytes) a = d
        by_cases hp : p < P.length
        · rw [List.getElem?_append_left hp] at hd
          obtain ⟨a, ha, hbyte⟩ := hfilled p d hd
          refine ⟨a, ha, ?_⟩
          rw [writeBytes_of_not_mem _ _ _ fun hmem' => ?_, hbyte]
          obtain ⟨k, hk⟩ := List.mem_iff_getElem?.1 hmem'
          have hkn : k < bytes := hn ▸ (List.getElem?_eq_some_iff.1 hk).1
          have := hok.disjoint p _ a ha ((hpos k hkn).trans hk)
          omega
        · rw [List.getElem?_append_right (Nat.not_lt.1 hp)] at hd
          have hk : p - P.length < bytes := hlen ▸ (List.getElem?_eq_some_iff.1 hd).1
          have ha := hpos (p - P.length) hk
          rw [Nat.add_sub_cancel' (Nat.not_lt.1 hp), List.getElem?_eq_getElem (hn ▸ hk)] at ha
          exact ⟨_, ha, writeBytes_of_nodup hnodup (List.getElem?_eq_getElem _) hd⟩

/-! ### The cursor -/

/-- The cursor stands at a position. -/
structure DmaInfo.At (dma : DmaInfo) (k : ℕ) : Prop where
  pos : sgeSum (dma.sge.take dma.curSge) + dma.sgeOffset = k
  inside : ∀ sge, dma.sge[dma.curSge]? = some sge → dma.sgeOffset ≤ sge.length
  cur : dma.curSge ≤ dma.sge.length
  resid : dma.resid + k = dma.length

/-- Where a walk over the SGEs behind `pre` ends. -/
structure WalkEnd (sges : List Sge) (k : ℕ) (r : Cursor) : Prop where
  pos : sgeSum (sges.take r.curSge) + r.sgeOffset = k
  inside : ∀ sge, sges[r.curSge]? = some sge → r.sgeOffset ≤ sge.length
  cur : r.curSge ≤ sges.length

theorem walkEnd_of_split {pre rest : List Sge} {offset resid k : ℕ} (hk : sgeSum pre + offset = k)
    (hinside : ∀ sge, rest.head? = some sge → offset ≤ sge.length) :
    WalkEnd (pre ++ rest) k ⟨pre.length, offset, resid⟩ where
  pos := by
    rw [List.take_left']
    · exact hk
    · rfl
  inside sge hsge := by
    rw [List.getElem?_append_right (Nat.le_refl _), Nat.sub_self, ← List.head?_eq_getElem?] at hsge
    exact hinside sge hsge
  cur := by
    simp

theorem copyLoop_at {σ : Type} (act : σ → ℕ → ℕ → ℕ → Except Errno σ) (sges : List Sge) :
    ∀ {pre : List Sge} {offset resid length : ℕ} {s s' : σ} {cur' : ℕ} {r : Cursor},
      (∀ sge, sges.head? = some sge → offset ≤ sge.length) →
      copyLoop act sges pre.length offset resid length s = (cur', s', .ok r) →
      WalkEnd (pre ++ sges) (sgeSum pre + offset + length) r := by
  induction sges with
  | nil =>
    intro pre offset resid length s s' cur' r hinside h
    unfold copyLoop at h
    split at h
    · next hzero =>
      cases h
      exact walkEnd_of_split (by rw [hzero]; rfl) hinside
    · cases h
  | cons sge rest ih =>
    intro pre offset resid length s s' cur' r hinside h
    have hoff := hinside sge rfl
    -- the walk goes on at the start of the next SGE
    have hnext : ∀ length', sgeSum pre + offset + length = sgeSum pre + sge.length + length' →
        ∀ resid s, copyLoop act rest (pre.length + 1) 0 resid length' s = (cur', s', .ok r) →
          WalkEnd (pre ++ sge :: rest) (sgeSum pre + offset + length) r := by
      intro length' hlen resid s hloop
      have hwalk : WalkEnd ((pre ++ [sge]) ++ rest) (sgeSum (pre ++ [sge]) + 0 + length') r :=
        ih (fun _ _ => Nat.zero_le _) (by rw [List.length_append]; exact hloop)
      rw [hlen, ← sgeSum_append]
      simpa using hwalk
    unfold copyLoop at h
    split at h
    · next hzero =>
      cases h
      exact walkEnd_of_split (by rw [hzero]; rfl) hinside
    · split at h
      · exact hnext length (by omega) resid s h
      · dsimp only at h
        split at h
        · cases h
        · split at h
          · next hlast =>
            cases h
            refine walkEnd_of_split (by omega) ?_
            rintro sge' hsge'
            cases hsge'
            omega
          · exact hnext _ (by omega) _ _ h

theorem copyLoop_filled {pd : ℕ} (sges : List Sge) :
    ∀ {pre : List Sge} {offset resid : ℕ} {dev : Dev} {data P : List UInt8} {s' : Dev × List UInt8}
      {cur' : ℕ} {r : Cursor}, BufOk dev pd (pre ++ sges) → Filled dev pd (pre ++ sges) P →
      P.length = sgeSum pre + offset → (∀ sge, sges.head? = some sge → offset ≤ sge.length) →
      copyLoop (scatterPiece pd (some .localWrite)) sges pre.length offset resid data.length
        (dev, data) = (cur', s', .ok r) →
      s'.1.regions = dev.regions ∧ Filled s'.1 pd (pre ++ sges) (P ++ data) := by
  induction sges with
  | nil =>
    intro pre offset resid dev data P s' cur' r hok hfilled hP hinside h
    unfold copyLoop at h
    split at h
    · next hzero =>
      obtain rfl := List.length_eq_zero_iff.1 hzero
      cases h
      rw [List.append_nil P]
      exact ⟨rfl, hfilled⟩
    · cases h
  | cons sge rest ih =>
    intro pre offset resid dev data P s' cur' r hok hfilled hP hinside h
    have hoff := hinside sge rfl
    have hsplit : pre ++ sge :: rest = (pre ++ [sge]) ++ rest := by simp
    unfold copyLoop at h
    split at h
    · next hzero =>
      obtain rfl := List.length_eq_zero_iff.1 hzero
      cases h
      rw [List.append_nil P]
      exact ⟨rfl, hfilled⟩
    · split at h
      -- the cursor is at the end of this SGE
      · rw [hsplit] at hok hfilled ⊢
        refine ih hok hfilled ?_ (fun _ _ => Nat.zero_le _) (by rw [List.length_append]; exact h)
        rw [sgeSum_append, hP]
        omega
      · dsimp only at h
        split at h
        · cases h
        · next s₁ hpiece =>
          obtain ⟨hdata, hmem, hfilled₁⟩ := scatterPiece_filled hok hfilled hP (by omega)
            (Nat.min_le_left _ _) hpiece
          split at h
          · next hlast =>
            cases h
            rw [← hlast, List.take_length] at hfilled₁
            exact ⟨hmem, hfilled₁⟩
          · next hmore =>
            obtain ⟨dev₁, data₁⟩ := s₁
            dsimp only at hdata hmem hfilled₁
            rw [hsplit] at hok hfilled₁ ⊢
            -- a piece changes bytes, not regions
            have hok₁ : BufOk dev₁ pd ((pre ++ [sge]) ++ rest) :=
              hok.congr fun sge _ => localMem_congr hmem pd sge.lkey
            have hlen : data.length - min data.length (sge.length - offset) = data₁.length := by
              rw [hdata, List.length_drop]
            rw [hlen] at h
            obtain ⟨hmem', hfilled'⟩ := ih hok₁ hfilled₁ (by
              rw [sgeSum_append, List.length_append, hP, List.length_take]
              omega) (fun _ _ => Nat.zero_le _) (by rw [List.length_append]; exact h)
            refine ⟨hmem'.trans hmem, ?_⟩
            rwa [hdata, List.append_assoc P, List.take_append_drop] at hfilled'

/-- A walk inside the buffer only fails where one of its pieces does; `I` may speak about the
number of bytes that are left. -/
theorem copyLoop_inside {σ : Type} (act : σ → ℕ → ℕ → ℕ → Except Errno σ) {I : ℕ → σ → Prop}
    (hact : ∀ length s lkey iova bytes s', bytes ≤ length → I length s →
      act s lkey iova bytes = .ok s' → I (length - bytes) s') (sges : List Sge) :
    ∀ (cur offset resid length : ℕ) (s : σ), I length s → length ≤ sgeAvail sges offset →
      (∃ cur' s' r, copyLoop act sges cur offset resid length s = (cur', s', .ok r)) ∨
        ∃ cur' s' e, copyLoop act sges cur offset resid length s = (cur', s', .error e) ∧
          ∃ sge ∈ sges, ∃ o n m, 0 < n ∧ n ≤ m ∧ o + n ≤ sge.length ∧ I m s' ∧
            act s' sge.lkey (sge.addr + o) n = .error e := by
  induction sges with
  | nil =>
    intro cur offset resid length s _ hroom
    have hzero : length = 0 := Nat.le_zero.1 hroom
    exact Or.inl ⟨_, _, _, if_pos hzero⟩
  | cons sge rest ih =>
    intro cur offset resid length s hI hroom
    have hrest := sgeAvail_zero rest
    rw [sgeAvail] at hroom
    -- a failure behind this SGE is one of the walk
    have hnext : ∀ {resid length s}, I length s → length ≤ sgeAvail rest 0 →
        (∃ cur' s' r, copyLoop act rest (cur + 1) 0 resid length s = (cur', s', .ok r)) ∨
        ∃ cur' s' e, copyLoop act rest (cur + 1) 0 resid length s = (cur', s', .error e) ∧
          ∃ sge' ∈ sge :: rest, ∃ o n m, 0 < n ∧ n ≤ m ∧ o + n ≤ sge'.length ∧ I m s' ∧
            act s' sge'.lkey (sge'.addr + o) n = .error e := by
      intro resid length s hI hroom
      rcases ih (cur + 1) 0 resid length s hI hroom with hok | ⟨cur', s', e, h, sge', hmem, herr⟩
      · exact Or.inl hok
      · exact Or.inr ⟨cur', s', e, h, sge', List.mem_cons_of_mem sge hmem, herr⟩
    unfold copyLoop
    split
    · exact Or.inl ⟨_, _, _, rfl⟩
    · split
      · exact hnext hI (by omega)
      · next hzero hoff =>
        dsimp only
        split
        · next e herr =>
          exact Or.inr ⟨_, _, e, rfl, sge, List.mem_cons_self, offset, _, length, by omega,
            Nat.min_le_left _ _, by omega, hI, herr⟩
        · next s' hs' =>
          split
          · exact Or.inl ⟨_, _, _, rfl⟩
          · exact hnext (hact length s _ _ _ s' (Nat.min_le_left _ _) hI hs') (by omega)

/-! ### Copies into a receive buffer -/

section Copy

variable {dev dev' : Dev} {pd k : ℕ} {dma dma' : DmaInfo} {data P : List UInt8} {e : Errno}

theorem copyDataIn_with {r : Except Errno Unit}
    (h : copyDataIn dev pd (some .localWrite) dma data = (dma', dev', r)) :
    ∃ rest, copyDataWith (scatterPiece pd (some .localWrite)) dma data.length (dev, data) =
      (dma', (dev', rest), r) := by
  unfold copyDataIn at h
  generalize copyDataWith (scatterPiece pd (some .localWrite)) dma data.length (dev, data) = s
    at h ⊢
  obtain ⟨d, ⟨dev₁, rest⟩, res⟩ := s
  cases h
  exact ⟨rest, rfl⟩

theorem copyDataIn_walk (hat : dma.At k)
    (h : copyDataIn dev pd (some .localWrite) dma data = (dma', dev', .ok ())) :
    (data = [] ∧ dma' = dma ∧ dev' = dev) ∨
      ∃ cur rest r, copyLoop (scatterPiece pd (some .localWrite)) (dma.sge.drop dma.curSge)
        (dma.sge.take dma.curSge).length dma.sgeOffset dma.resid data.length (dev, data) =
          (cur, (dev', rest), .ok r) ∧
        dma' = { dma with curSge := r.curSge, sgeOffset := r.sgeOffset, resid := r.resid } := by
  obtain ⟨rest, h⟩ := copyDataIn_with h
  rw [List.length_take_of_le hat.cur]
  unfold copyDataWith at h
  split at h
  · next hzero =>
    cases h
    exact Or.inl ⟨List.length_eq_zero_iff.1 hzero, rfl, rfl⟩
  · split at h
    · cases h
    · split at h
      · cases h
      · next hloop =>
        cases h
        exact Or.inr ⟨_, rest, _, hloop, rfl⟩

theorem DmaInfo.At.head (hat : dma.At k) :
    ∀ sge, (dma.sge.drop dma.curSge).head? = some sge → dma.sgeOffset ≤ sge.length := by
  intro sge hsge
  rw [List.head?_drop] at hsge
  exact hat.inside sge hsge

/-- The cursor after a copy. -/
theorem copyDataIn_at (hat : dma.At k)
    (h : copyDataIn dev pd (some .localWrite) dma data = (dma', dev', .ok ())) :
    dma'.At (k + data.length) := by
  have hresid : dma'.resid + data.length = dma.resid ∧ dma'.length = dma.length := by
    obtain ⟨rest, h⟩ := copyDataIn_with h
    exact copyDataWith_ok h
  rcases copyDataIn_walk hat h with ⟨rfl, rfl, -⟩ | ⟨cur, rest, r, hloop, rfl⟩
  · exact hat
  · have hwalk := copyLoop_at _ _ hat.head hloop
    rw [List.take_append_drop, hat.pos] at hwalk
    exact
      { pos := hwalk.pos
        inside := hwalk.inside
        cur := hwalk.cur
        resid := by
          have := hat.resid
          omega }

/-- A copy stores its data behind what the buffer starts with. -/
theorem copyDataIn_filled (hat : dma.At k) (hP : P.length = k) (hok : BufOk dev pd dma.sge)
    (hfilled : Filled dev pd dma.sge P)
    (h : copyDataIn dev pd (some .localWrite) dma data = (dma', dev', .ok ())) :
    Filled dev' pd dma.sge (P ++ data) := by
  rcases copyDataIn_walk hat h with ⟨rfl, -, rfl⟩ | ⟨cur, rest, r, hloop, -⟩
  · rw [List.append_nil]
    exact hfilled
  · have hsplit : dma.sge = dma.sge.take dma.curSge ++ dma.sge.drop dma.curSge :=
      (List.take_append_drop _ _).symm
    rw [hsplit] at hok hfilled ⊢
    refine (copyLoop_filled _ hok hfilled ?_ hat.head hloop).2
    rw [hP, hat.pos]

theorem DmaInfo.At.avail (hat : dma.At k) :
    sgeSum dma.sge ≤ k + sgeAvail (dma.sge.drop dma.curSge) dma.sgeOffset := by
  have hsplit : sgeSum dma.sge =
      sgeSum (dma.sge.take dma.curSge) + sgeSum (dma.sge.drop dma.curSge) := by
    unfold sgeSum
    rw [← List.sum_append, ← List.map_append, List.take_append_drop]
  have hpos := hat.pos
  have hhead := hat.head
  cases hdrop : dma.sge.drop dma.curSge with
  | nil =>
    rw [hdrop, show sgeSum [] = 0 from rfl] at hsplit
    omega
  | cons sge rest =>
    have hinside := hhead sge (by rw [hdrop]; rfl)
    rw [hdrop, show sgeSum (sge :: rest) = sge.length + sgeSum rest from List.sum_cons] at hsplit
    rw [sgeAvail, show (rest.map Sge.length).sum = sgeSum rest from rfl]
    omega

theorem scatterPiece_ok {s s' : Dev × List UInt8} {lkey iova bytes : ℕ}
    (h : scatterPiece pd (some .localWrite) s lkey iova bytes = .ok s') :
    s'.1.regions = s.1.regions ∧ s'.2 = s.2.drop bytes := by
  unfold scatterPiece at h
  split at h
  · cases h
  · split at h
    · cases h
    · next hcopy =>
      cases h
      unfold rxeMemCopyIn at hcopy
      split at hcopy
      · cases hcopy
      · cases hcopy
        exact ⟨rfl, rfl⟩

theorem copyDataIn_inside (hat : dma.At k) (hfits : dma.length ≤ sgeSum dma.sge)
    (h : copyDataIn dev pd (some .localWrite) dma data = (dma', dev', .error e)) :
    (e = .einval ∧ s32 dma.resid < data.length) ∨ dev'.regions = dev.regions ∧
      ∃ rest, ∃ sge ∈ dma.sge, ∃ o n, 0 < n ∧ n ≤ rest.length ∧ o + n ≤ sge.length ∧
        scatterPiece pd (some .localWrite) (dev', rest) sge.lkey (sge.addr + o) n = .error e := by
  obtain ⟨left, h⟩ := copyDataIn_with h
  unfold copyDataWith at h
  split at h
  · cases h
  · split at h
    · next hresid =>
      cases h
      exact Or.inl ⟨rfl, hresid⟩
    · next hzero hresid =>
      have hle := s32_le dma.resid
      have havail := hat.avail
      have hleft := hat.resid
      -- what is left of the data is as long as what is left of the walk
      have hwalk := copyLoop_inside (scatterPiece pd (some .localWrite))
        (I := fun m s => m = s.2.length ∧ s.1.regions = dev.regions) (by
          rintro m s lkey iova bytes s' - ⟨hm, hmem⟩ hpiece
          obtain ⟨hmem', hdata⟩ := scatterPiece_ok hpiece
          exact ⟨by rw [hdata, List.length_drop, hm], hmem'.trans hmem⟩)
        (dma.sge.drop dma.curSge) dma.curSge dma.sgeOffset dma.resid data.length (dev, data)
        ⟨rfl, rfl⟩ (by omega)
      rcases hwalk with ⟨cur', s', r, hloop⟩ | ⟨cur', s', e', hloop, sge, hsge, o, n, m, hn, hnm,
        hon, ⟨hm, hmem⟩, herr⟩
      · rw [hloop] at h
        cases h
      · rw [hloop] at h
        cases h
        exact Or.inr ⟨hmem, left, sge, List.mem_of_mem_drop hsge, o, n, hn, hm ▸ hnm, hon, herr⟩

theorem scatterPiece_error {s : Dev × List UInt8} {lkey iova bytes : ℕ}
    (h : scatterPiece pd (some .localWrite) s lkey iova bytes = .error e) : e ≠ .enospc := by
  unfold scatterPiece at h
  split at h
  · cases h
    nofun
  · split at h
    · next hcopy =>
      cases h
      unfold rxeMemCopyIn memAddrs at hcopy
      split at hcopy
      · next haddrs =>
        cases hcopy
        split at haddrs
        · cases haddrs
        · split at haddrs
          · cases haddrs
            nofun
          · split at haddrs
            · cases haddrs
              nofun
            · split at haddrs
              · cases haddrs
                nofun
              · cases haddrs
      · cases hcopy
    · cases h

theorem copyDataIn_enospc (hat : dma.At k) (hfits : dma.length ≤ sgeSum dma.sge)
    (h : copyDataIn dev pd (some .localWrite) dma data = (dma', dev', .error e)) : e ≠ .enospc := by
  rcases copyDataIn_inside hat hfits h with ⟨rfl, -⟩ | ⟨-, rest, sge, -, o, n, -, -, -, herr⟩
  · nofun
  · exact scatterPiece_error herr

/-- Every piece of the buffer can be written. -/
def Usable (dev : Dev) (pd : ℕ) (sges : List Sge) : Prop :=
  ∀ sge ∈ sges, ∀ o n, 0 < n → o + n ≤ sge.length →
    ∃ mem addrs, localMem dev pd sge.lkey = some mem ∧ memAddrs mem (sge.addr + o) n = .ok addrs

/-- A copy into a usable buffer with room for it succeeds. -/
theorem copyDataIn_usable (hat : dma.At k) (huse : Usable dev pd dma.sge)
    (hfits : dma.length ≤ sgeSum dma.sge) (hlt : dma.length < 2 ^ 31)
    (hroom : k + data.length ≤ dma.length) :
    ∃ dma' dev', copyDataIn dev pd (some .localWrite) dma data = (dma', dev', .ok ()) := by
  obtain ⟨⟨dma', dev', r⟩, h⟩ : ∃ r, copyDataIn dev pd (some .localWrite) dma data = r := ⟨_, rfl⟩
  cases r with
  | ok u => exact ⟨dma', dev', h⟩
  | error e =>
    exfalso
    have hleft := hat.resid
    have hresid := s32_of_lt (x := dma.resid) (by omega)
    rcases copyDataIn_inside hat hfits h with
      ⟨-, hlt⟩ | ⟨hmem, rest, sge, hsge, o, n, hn, hrest, hon, herr⟩
    · omega
    · obtain ⟨mem, addrs, hlocal, haddrs⟩ := huse sge hsge o n hn hon
      rw [← localMem_congr hmem] at hlocal
      unfold scatterPiece at herr
      rw [show (lookupMem dev' pd (some .localWrite) sge.lkey .local).bind dev'.mem = some mem from
        hlocal] at herr
      unfold rxeMemCopyIn at herr
      dsimp only at herr
      rw [List.length_take_of_le hrest, haddrs] at herr
      cases herr

end Copy

end Rxe
