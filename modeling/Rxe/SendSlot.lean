/-
Lengths of posted requests (`rxe_verbs.c`, `rxe_qp.c`, `rxe.c` of `librxe`).

The driver and the library add the SGE lengths of a work request in 32-bit arithmetic, test
the sum, and store it in the WQE; the inline copy uses the lengths themselves.  The cells of
the send queue were given their size when the QP was created.

* `sendWqeSize` — the size of an element of the send queue;
* `PostedExact` — the lengths in a WQE are those of the request, and its data fits;
* `posted_exact_iff` — they are exactly if the lengths add up to less than 2³².
-/
import Rxe.QpState
import Rxe.Queue
import Rxe.Scatter

namespace Rxe

/-- The layout of `struct rxe_send_wqe`: where its last member, the inline data, starts, and its
size. -/
structure WqeLayout where
  inlineData : ℕ
  size : ℕ
  inside : inlineData ≤ size

/-- `wqe_size` of `rxe_qp_init_req`, an `int` that is passed on as `unsigned int`. -/
def sendWqeSize (l : WqeLayout) (cap : QpCap) : ℕ :=
  (max (s32 (l.size + cap.maxSendSge * 16)) (s32 (l.size + cap.maxInlineData)) % 2 ^ 32).toNat

/-- No copy from a buffer, from any position of its cursor, gets to the end of the SGE list with
bytes left. -/
def NeverPast (length : ℕ) (sges : List Sge) : Prop :=
  ∀ (dma : DmaInfo) (k n : ℕ), dma.At k → dma.length = length → dma.sge = sges →
    ∀ (σ : Type) (act : σ → ℕ → ℕ → ℕ → Except Errno σ) (s : σ),
      (∀ s lkey iova bytes, act s lkey iova bytes ≠ .error .enospc) →
      (copyDataWith act dma n s).2.2 ≠ .error .enospc

/-- The lengths of a WQE are those of the request it was made for. -/
structure PostedExact (l : WqeLayout) (cap : QpCap) (wr : SendWr) (w : SendWqe) : Prop where
  length : w.dma.length = sgeSum wr.sgList
  bounded : wr.sendFlags.inline → w.dma.inlineData.length ≤ cap.maxInlineData
  inSlot : wr.sendFlags.inline →
    l.inlineData + w.dma.inlineData.length ≤ cellSize (sendWqeSize l cap)
  walk : NeverPast w.dma.length wr.sgList

/-- What both verbs write, for a request that has passed the test of its length. -/
structure Posted (maxInline : ℕ) (wr : SendWr) (w : SendWqe) : Prop where
  length : w.dma.length = sgeTotal wr.sgList
  data : wr.sendFlags.inline → ∃ dev, w.dma.inlineData = inlineBytes dev wr.sgList
  tested : wr.sendFlags.inline → sgeTotal wr.sgList ≤ maxInline

/-- A verb takes requests from the front of a chain, and queues one WQE for each. -/
inductive Queues (R : SendWr → SendWqe → Prop) : List SendWqe → List SendWr → List SendWqe → Prop
  | stop (live : List SendWqe) (wrs : List SendWr) : Queues R live wrs live
  | take {live live' : List SendWqe} {wr : SendWr} {wrs : List SendWr} {w : SendWqe} (h : R wr w)
      (hrest : Queues R (live ++ [w]) wrs live') : Queues R live (wr :: wrs) live'

section

variable {l : WqeLayout} {cap : QpCap} {wr : SendWr} {w : SendWqe}

theorem Queues.imp {R S : SendWr → SendWqe → Prop} {live live' : List SendWqe} {wrs : List SendWr}
    (h : Queues R live wrs live') (hRS : ∀ wr w, R wr w → S wr w) : Queues S live wrs live' := by
  induction h with
  | stop live wrs => exact .stop live wrs
  | take h _ ih => exact .take (hRS _ _ h) ih

theorem neverPast_sgeSum (sges : List Sge) : NeverPast (sgeSum sges) sges := by
  intro dma k n hat hlength hsge σ act s hact
  subst hsge
  unfold copyDataWith
  split
  · nofun
  · split
    · nofun
    · next hresid =>
      -- what is left of the buffer is in the SGEs behind the cursor
      have hle := s32_le dma.resid
      have havail := hat.avail
      have hleft := hat.resid
      rcases copyLoop_inside act (I := fun _ _ => True) (fun _ _ _ _ _ _ _ _ _ => trivial)
        (dma.sge.drop dma.curSge) dma.curSge dma.sgeOffset dma.resid n s trivial (by omega)
        with ⟨cur', s', r, hloop⟩ | ⟨cur', s', e, hloop, sge, -, o, m, -, -, -, -, -, herr⟩
      · rw [hloop]
        nofun
      · rw [hloop]
        rintro ⟨⟩
        exact hact _ _ _ _ herr

theorem inlineBytes_length (dev : Dev) (sges : List Sge) :
    (inlineBytes dev sges).length = sgeSum sges := by
  unfold inlineBytes sgeSum
  rw [List.length_flatMap]
  simp

/-- A cell has room for the inline data that the QP allows. -/
theorem inline_fits (hsge : l.size + cap.maxSendSge * 16 < 2 ^ 31)
    (hinline : l.size + cap.maxInlineData < 2 ^ 31) :
    l.inlineData + cap.maxInlineData ≤ cellSize (sendWqeSize l cap) := by
  have hin := l.inside
  have hsize : l.size + cap.maxInlineData ≤ sendWqeSize l cap := by
    unfold sendWqeSize
    rw [s32_of_lt hsge, s32_of_lt hinline]
    omega
  obtain ⟨e, he, hle, -⟩ := roundupPowOfTwo_spec (max (sendWqeSize l cap) cacheLineSize)
  rw [cellSize, he]
  omega

theorem Posted.exact_iff (h : Posted cap.maxInlineData wr w)
    (hsge : l.size + cap.maxSendSge * 16 < 2 ^ 31)
    (hinline : l.size + cap.maxInlineData < 2 ^ 31) :
    PostedExact l cap wr w ↔ sgeSum wr.sgList < 2 ^ 32 := by
  obtain ⟨hlength, hdata, hvalid⟩ := h
  constructor
  · intro h
    have hlen := h.length.symm.trans hlength
    rw [hlen]
    exact Nat.mod_lt _ (by decide)
  · intro hlt
    have hexact : sgeTotal wr.sgList = sgeSum wr.sgList := Nat.mod_eq_of_lt hlt
    have hshort : wr.sendFlags.inline → w.dma.inlineData.length ≤ cap.maxInlineData := by
      intro h
      obtain ⟨dev, hbytes⟩ := hdata h
      rw [hbytes, inlineBytes_length, ← hexact]
      exact hvalid h
    refine ⟨hlength.trans hexact, hshort, fun h => ?_, ?_⟩
    · have hroom := inline_fits hsge hinline
      have := hshort h
      omega
    · rw [hlength, hexact]
      exact neverPast_sgeSum wr.sgList

theorem rxePostSend_queues (c : Ctx) (wrs : List SendWr) :
    Queues (Posted c.qp.sqMaxInline) c.qp.sq.live wrs (rxePostSend c wrs).2.qp.sq.live := by
  have hloop : Queues (Posted c.qp.sqMaxInline) c.qp.sq.live wrs
      (postSendLoop c wrs).2.qp.sq.live := by
    induction wrs generalizing c with
    | nil => exact .stop _ _
    | cons wr wrs ih =>
      rcases postSendLoop_cons c wr wrs with ⟨⟨-, hwell, hroom⟩, hloop⟩ | ⟨-, hloop⟩
      · obtain ⟨slot, -, hpush⟩ := push_live_of_room hroom
        have hrest := ih { c with
          qp.sq := c.qp.sq.push (initSendWqe c.qp.type c.dev wr (wrOpcodeMask wr.opcode c.qp.type)
            (sgeTotal wr.sgList) (c.qp.ssn + 1))
          qp.ssn := c.qp.ssn + 1 }
        rw [hpush] at hrest
        rw [hloop]
        exact .take ⟨rfl, fun h => ⟨c.dev, if_pos h⟩, hwell.2.2⟩ hrest
      · rw [hloop]
        exact .stop _ _
  unfold rxePostSend
  split
  · exact .stop _ _
  · exact hloop

theorem libPostSend_queues (c : Ctx) (ssn : ℕ) (wrs : List SendWr) :
    Queues (Posted c.qp.sqMaxInline) c.qp.sq.live wrs
      (libPostSend (c.libQp ssn) c wrs).2.2.qp.sq.live := by
  unfold libPostSend
  dsimp only
  rw [(postSendDb_eq _).2]
  induction wrs generalizing c ssn with
  | nil => exact .stop _ _
  | cons wr wrs ih =>
    rcases libPostSendLoop_cons c ssn wr wrs with
      ⟨⟨hwell, hroom⟩, c', rfl, hloop⟩ | ⟨-, qp, c', hloop, hlive⟩
    · obtain ⟨slot, -, hpush⟩ := push_live_of_room hroom
      have hrest := ih { c with
        qp.sq := c.qp.sq.push (libInitSendWqe c.qp.type c.dev wr (sgeTotal wr.sgList) ssn) }
          (ssn + 1)
      rw [hpush] at hrest
      rw [hloop]
      exact .take ⟨rfl, fun h => ⟨c.dev, if_pos h⟩, hwell.2.2⟩ hrest
    · rw [hloop]
      dsimp only
      rw [hlive]
      exact .stop _ _

end

/-- The lengths in the WQE of a request that either verb takes are exact if and only if the SGE
lengths add up to less than 2³². -/
theorem posted_exact_iff (l : WqeLayout) (lim : DevLimits) (cap : QpCap) (hasSrq : Bool) (c : Ctx)
    (ssn : ℕ) (wrs : List SendWr) (hchk : rxeQpChkCap lim cap hasSrq = true)
    (hsge : l.size + lim.maxSge * 16 < 2 ^ 31) (hinline : l.size + lim.maxInlineData < 2 ^ 31)
    (hcap : c.qp.sqMaxInline = cap.maxInlineData) :
    Queues (fun wr w => PostedExact l cap wr w ↔ sgeSum wr.sgList < 2 ^ 32) c.qp.sq.live wrs
        (rxePostSend c wrs).2.qp.sq.live ∧
      Queues (fun wr w => PostedExact l cap wr w ↔ sgeSum wr.sgList < 2 ^ 32) c.qp.sq.live wrs
        (libPostSend (c.libQp ssn) c wrs).2.2.qp.sq.live := by
  simp only [rxeQpChkCap, Bool.and_eq_true, decide_eq_true_eq] at hchk
  obtain ⟨⟨⟨-, hmax⟩, -⟩, hmaxInline⟩ := hchk
  have hexact : ∀ wr w, Posted c.qp.sqMaxInline wr w →
      (PostedExact l cap wr w ↔ sgeSum wr.sgList < 2 ^ 32) := by
    intro wr w h
    rw [hcap] at h
    exact h.exact_iff (by omega) (by omega)
  exact ⟨(rxePostSend_queues c wrs).imp hexact, (libPostSend_queues c ssn wrs).imp hexact⟩

/-- A QP made for two SGEs and 400 inline bytes, in RTS. -/
def wideSend : Ctx := { twoSends .rc with qp.sqMaxSge := 2, qp.sqMaxInline := 400 }

/-- An inline send whose SGE lengths add up to 2³² + 1. -/
def wrappedSend : SendWr :=
  { opcode := .send, sendFlags := { inline := true }
    sgList := [{ addr := 0, length := 2 ^ 32 - 1, lkey := 1 },
      { addr := 0, length := 2, lkey := 1 }] }

theorem posted_exact_read :
    Queues (fun wr w =>
        PostedExact ⟨248, 248, le_rfl⟩ { maxSendSge := 2, maxInlineData := 400 } wr w ↔
          sgeSum wr.sgList < 2 ^ 32) [] [readFour] (rxePostSend wideSend [readFour]).2.qp.sq.live :=
  (posted_exact_iff ⟨248, 248, le_rfl⟩ {} { maxSendSge := 2, maxInlineData := 400 } false wideSend 0
    [readFour] (by decide) (by decide) (by decide) rfl).1

/-- Both verbs take it as a request of one byte, and copy more than 2³² bytes into a cell of
1024. -/
theorem posted_wrapped :
    (rxePostSend wideSend [wrappedSend]).1 = true ∧
      (rxePostSend wideSend [wrappedSend]).2.qp.sq.live.map (fun w => (w.dma.length,
        w.dma.inlineData)) = [(1, inlineBytes {} wrappedSend.sgList)] ∧
      (libPostSend (wideSend.libQp 0) wideSend [wrappedSend]).1 = true ∧
      (libPostSend (wideSend.libQp 0) wideSend [wrappedSend]).2.2.qp.sq.live.map (fun w =>
        (w.dma.length, w.dma.inlineData)) = [(1, inlineBytes {} wrappedSend.sgList)] ∧
      (inlineBytes {} wrappedSend.sgList).length = 2 ^ 32 + 1 ∧
      cellSize (sendWqeSize ⟨248, 248, le_rfl⟩ { maxSendSge := 2, maxInlineData := 400 }) =
        1024 := by
  have hker : (rxePostSend wideSend [wrappedSend]).2.qp.sq.live = [initSendWqe .rc {} wrappedSend
      (wrOpcodeMask .send .rc) 1 1 { ibwr := { opcode := .send } }] := rfl
  have hlib : (libPostSend (wideSend.libQp 0) wideSend [wrappedSend]).2.2.qp.sq.live =
      [libInitSendWqe .rc {} wrappedSend 1 0 { ibwr := { opcode := .send } }] := rfl
  rw [hker, hlib]
  have hinline : wrappedSend.sendFlags.inline = true := rfl
  refine ⟨rfl, ?_, rfl, ?_, (inlineBytes_length _ _).trans (by decide), by decide⟩
  · simp only [List.map_singleton, initSendWqe, hinline, if_true]
  · simp only [List.map_singleton, libInitSendWqe, hinline, if_true]

end Rxe
