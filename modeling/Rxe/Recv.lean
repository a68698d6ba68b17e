/-
Receiving a packet (`rxe_recv.c`, `rxe_hdr.h`).

The interface hands `rxe_rcv` a buffer: the bytes from `pkt->hdr` on, of which the first
`skb->len` have been received.  Over Ethernet the headers start with the GRH; over an
InfiniBand link with the LRH, which says whether a GRH follows.  `rxeRcv` parses the
headers, checks them against the QP, and answers with the QPs the packet is queued to.

The length of the payload is computed from the length field of the GRH or the LRH, and
nothing compares that field with `skb->len`.

* `rxeRcv_payload_iff` — the payload of an accepted packet lies in the buffer exactly when
  the length field says so;
* `rxeRcv_overread` — an accepted packet without payload bytes whose header claims a
  thousand of them;
* `rxe_rcv_mcast_delivers` — the buffers of a multicast packet: one for each member that passes
  the checks, and each handed over or freed once.
-/
import Rxe.Verbs

namespace Rxe

/-! ### Columns of the opcode table -/

/-- The opcode with a given code; codes of other transports have no constructor, and no QP
accepts them. -/
def opcodeOf (code : ℕ) : Opcode :=
  let row : List Opcode := match code / 32 with
    | 0 =>
      [.rcSendFirst, .rcSendMiddle, .rcSendLast, .rcSendLastWithImmediate, .rcSendOnly,
        .rcSendOnlyWithImmediate, .rcRdmaWriteFirst, .rcRdmaWriteMiddle, .rcRdmaWriteLast,
        .rcRdmaWriteLastWithImmediate, .rcRdmaWriteOnly, .rcRdmaWriteOnlyWithImmediate,
        .rcRdmaReadRequest, .rcRdmaReadResponseFirst, .rcRdmaReadResponseMiddle,
        .rcRdmaReadResponseLast, .rcRdmaReadResponseOnly, .rcAcknowledge, .rcAtomicAcknowledge,
        .rcCompareSwap, .rcFetchAdd, .undefined 0x15, .rcSendLastInv, .rcSendOnlyInv]
    | 1 =>
      [.ucSendFirst, .ucSendMiddle, .ucSendLast, .ucSendLastWithImmediate, .ucSendOnly,
        .ucSendOnlyWithImmediate, .ucRdmaWriteFirst, .ucRdmaWriteMiddle, .ucRdmaWriteLast,
        .ucRdmaWriteLastWithImmediate, .ucRdmaWriteOnly, .ucRdmaWriteOnlyWithImmediate]
    | 3 =>
      [.undefined 0x60, .undefined 0x61, .undefined 0x62, .undefined 0x63, .udSendOnly,
        .udSendOnlyWithImmediate]
    | _ => []
  row.getD (code % 32) (.undefined code)

/-- `rxe_opcode[code].length` -/
def rxeOpcodeLength (code : ℕ) : ℕ :=
  let row : List ℕ := match code / 32 with
    | 0 =>
      [12, 12, 12, 16, 12, 16, 28, 12, 12, 16, 28, 32, 28, 16, 12, 16, 16, 16, 24, 40, 40,
        0, 16, 16]
    | 1 => [12, 12, 12, 16, 12, 16, 28, 12, 12, 16, 28, 32]
    | 2 =>
      [24, 24, 24, 28, 24, 28, 40, 24, 24, 28, 40, 44, 40, 20, 16, 20, 20, 20, 28, 52, 52, 24]
    | 3 => [0, 0, 0, 0, 20, 24]
    | 4 => [12]
    | _ => []
  row.getD (code % 32) 0

/-- `rxe_opcode[code].offset[RXE_PAYLOAD]`: the length of the headers, in the rows that have
the entry. -/
def rxeOpcodePayload (code : ℕ) : ℕ :=
  if code = 0x51 ∨ code = 0x52 ∨ code = 0x55 ∨ code = 0x80 then 0 else rxeOpcodeLength code

/-- `rxe_opcode[code].offset[RXE_DETH]`, for the opcodes of UD. -/
def rxeOpcodeDeth (code : ℕ) : ℕ := if code = 0x64 ∨ code = 0x65 then 12 else 0

/-! ### Buffers -/

/-- How `pkt->mask` and `pkt->hdr` are set by the interface. -/
inductive LinkLayer
  /-- `rxe_net`: the buffer starts with the GRH -/
  | net
  /-- an IB link: the buffer starts with the LRH -/
  | ib
  deriving DecidableEq, Repr

/-- The buffer handed to `rxe_rcv`. -/
structure RcvSkb where
  link : LinkLayer
  hdr : ℕ → UInt8
  len : ℕ
  portNum : ℕ := 1

/-- `struct rxe_pkt_info`, without the pointers. -/
structure PktInfo where
  hdr : ℕ → UInt8
  grh : Bool
  paylen : ℕ
  offset : ℕ
  opcode : ℕ
  psn : ℕ
  portNum : ℕ

/-- `n` bytes in network order. -/
def beBytes (hdr : ℕ → UInt8) (at_ : ℕ) : ℕ → ℕ
  | 0 => 0
  | n + 1 => beBytes hdr at_ n * 256 + (hdr (at_ + n)).toNat

/-- `__lrh_lnh` -/
def lrhLnh (hdr : ℕ → UInt8) : ℕ := (hdr 1).toNat % 4

/-- `__lrh_length`; the function returns a `u8`. -/
def lrhLength (hdr : ℕ → UInt8) : ℕ := beBytes hdr 4 2 % 2048 % 256

/-- `__grh_paylen(pkt->hdr)` -/
def grhPaylen (hdr : ℕ → UInt8) : ℕ := beBytes hdr 4 2

namespace PktInfo

variable (pkt : PktInfo)

def bthFlags : ℕ := (pkt.hdr (pkt.offset + 1)).toNat
def bthPad : ℕ := pkt.bthFlags / 16 % 4
def bthTver : ℕ := pkt.bthFlags % 16
def bthPkey : ℕ := beBytes pkt.hdr (pkt.offset + 2) 2
def bthQpn : ℕ := beBytes pkt.hdr (pkt.offset + 4) 4 % 2 ^ 24
def dethQkey : ℕ := beBytes pkt.hdr (pkt.offset + rxeOpcodeDeth pkt.opcode) 4

/-- `grh_ipver`, which reads from `pkt->hdr`. -/
def grhIpver : ℕ := (pkt.hdr 0).toNat / 16

/-- `grh_next_hdr`; the GRH ends where the BTH starts. -/
def grhNextHdr : ℕ := (pkt.hdr (pkt.offset - 40 + 6)).toNat

def sgidPrefix : ℕ := beBytes pkt.hdr (pkt.offset - 40 + 8) 8
def sgidInterface : ℕ := beBytes pkt.hdr (pkt.offset - 40 + 16) 8
def dgidPrefix : ℕ := beBytes pkt.hdr (pkt.offset - 40 + 24) 8
def dgidInterface : ℕ := beBytes pkt.hdr (pkt.offset - 40 + 32) 8

/-- `pkt->mask`, apart from the link header. -/
def hdrMask : HdrMask := { rxeOpcodeMask (opcodeOf pkt.opcode) with grh := pkt.grh }

/-- `payload_size` before the conversion to `size_t`. -/
def payloadSize : ℤ := pkt.paylen - rxeOpcodePayload pkt.opcode - pkt.bthPad - 4

end PktInfo

/-! ### Checks against the QP -/

/-- What the receive path reads of a QP. -/
structure RcvQp where
  type : QpType
  valid : Bool := true
  reqState : QpState := .ready
  respState : QpState := .ready
  portNum : ℕ := 1
  pkeyIndex : ℕ := 0
  qkey : ℕ := 0
  /-- `pri_av.attr.ah_flags & IB_AH_GRH` -/
  ahGrh : Bool := true
  sgidIndex : ℕ := 0
  dgidInterface : ℕ := 0

/-- What the receive path reads of the device and its port: the tables, the QPs by index,
and the multicast groups by GID. -/
structure RcvDev where
  pkeyTbl : List ℕ := [0xffff]
  guidTbl : ℕ → ℕ := fun _ => 0
  qpSmiIndex : ℕ := 0
  qpGsiIndex : ℕ := 1
  qp : ℕ → Option RcvQp
  mcGrp : ℕ → Option (List ℕ) := fun _ => none

/-- `check_type_state` -/
def checkTypeState (pkt : PktInfo) (qp : RcvQp) : Bool :=
  qp.valid &&
    (match qp.type with
      | .rc => pkt.opcode / 32 = 0
      | .uc => pkt.opcode / 32 = 1
      | .ud | .smi | .gsi => pkt.opcode / 32 = 3) &&
    (if pkt.hdrMask.req then qp.respState = .ready
      else qp.reqState = .ready || qp.reqState = .drain || qp.reqState = .drained)

/-- `pkey_match` -/
def pkeyMatch (key1 key2 : ℕ) : Bool :=
  key1 % 0x8000 ≠ 0 && key1 % 0x8000 = key2 % 0x8000 && (key1 ≥ 0x8000 || key2 ≥ 0x8000)

/-- `check_keys` -/
def checkKeys (rxe : RcvDev) (pkt : PktInfo) (qpn : ℕ) (qp : RcvQp) : Bool :=
  (if qpn = 1 then rxe.pkeyTbl.any (pkeyMatch pkt.bthPkey)
    else if qpn ≠ 0 then pkeyMatch pkt.bthPkey (rxe.pkeyTbl.getD qp.pkeyIndex 0)
    else true) &&
  (if qp.type = .ud ∧ qpn ≠ 0 then
      pkt.dethQkey = (if qpn = 1 then 0x80010000 else qp.qkey)
    else true)

/-- `check_addr` -/
def checkAddr (rxe : RcvDev) (pkt : PktInfo) (qp : RcvQp) : Bool :=
  if qp.type ≠ .rc ∧ qp.type ≠ .uc then true
  else if pkt.portNum ≠ qp.portNum then false
  else if pkt.grh = false then !qp.ahGrh
  else
    qp.ahGrh && !(pkt.dgidPrefix = 0 && pkt.dgidInterface ≤ 1) &&
      !(pkt.sgidPrefix / 2 ^ 56 = 0xff) && !(pkt.sgidPrefix = 0 && pkt.sgidInterface ≤ 1) &&
      pkt.dgidInterface = rxe.guidTbl qp.sgidIndex && pkt.sgidInterface = qp.dgidInterface

/-- `IB_MULTICAST_QPN` -/
def ibMulticastQpn : ℕ := 0xffffff

/-- The part of `hdr_check` on the GRH. -/
def grhCheck (pkt : PktInfo) : Bool := !pkt.grh || (pkt.grhNextHdr = 0x1b && pkt.grhIpver = 6)

/-- `hdr_check` for a QP number other than the multicast one: the index of the QP. -/
def hdrCheck (rxe : RcvDev) (pkt : PktInfo) : Option ℕ :=
  let qpn := pkt.bthQpn
  let index := if qpn = 0 then rxe.qpSmiIndex else if qpn = 1 then rxe.qpGsiIndex else qpn
  if pkt.bthTver ≠ 0 then none
  else
    match rxe.qp index with
    | none => none
    | some qp =>
      if checkTypeState pkt qp && grhCheck pkt && checkAddr rxe pkt qp && checkKeys rxe pkt qpn qp
      then some index
      else none

/-- `hdr_check` for the multicast QP number. -/
def hdrCheckMcast (pkt : PktInfo) : Bool :=
  pkt.bthTver = 0 && grhCheck pkt && pkt.grh && pkt.dgidPrefix / 2 ^ 56 = 0xff

/-- A packet queued to a QP: to its responder if it is a request, else to its completer. -/
structure Delivery where
  qp : ℕ
  toResponder : Bool
  pkt : PktInfo

/-- `rxe_rcv_pkt` -/
def rxeRcvPkt (qp : ℕ) (pkt : PktInfo) : Delivery := ⟨qp, pkt.hdrMask.req, pkt⟩

/-- The loop of `rxe_rcv_mcast_pkt`; `clones` are the outcomes of `skb_clone`. -/
def rcvMcastLoop (rxe : RcvDev) (pkt : PktInfo) : List ℕ → List Bool → List Delivery
  | [], _ => []
  | index :: rest, clones =>
    match rxe.qp index with
    | none => rcvMcastLoop rxe pkt rest clones
    | some qp =>
      if checkTypeState pkt qp && checkKeys rxe pkt pkt.bthQpn qp then
        rxeRcvPkt index pkt ::
          match rest, clones with
          | [], _ => []
          | _, [] => rcvMcastLoop rxe pkt rest []
          | _, ok :: clones => if ok then rcvMcastLoop rxe pkt rest clones else []
      else rcvMcastLoop rxe pkt rest clones

/-- `rxe_rcv_mcast_pkt` -/
def rxeRcvMcastPkt (rxe : RcvDev) (pkt : PktInfo) (clones : List Bool) : List Delivery :=
  match rxe.mcGrp (pkt.dgidPrefix * 2 ^ 64 + pkt.dgidInterface) with
  | none => []
  | some qps => rcvMcastLoop rxe pkt qps clones

/-! ### The receive function -/

/-- The link header: the offset of what follows it, `pkt->paylen`, and whether there is a
GRH. -/
def parseLrh (skb : RcvSkb) : Option (ℕ × ℕ × Bool) :=
  match skb.link with
  | .net => some (0, 0, true)
  | .ib =>
    if skb.len < 8 then none
    else if lrhLnh skb.hdr < 2 then none
    -- `4*length - RXE_LRH_BYTES`, stored in a `u16`
    else some (8, (4 * lrhLength skb.hdr + 2 ^ 16 - 8) % 2 ^ 16, lrhLnh skb.hdr = 3)

/-- The GRH: the offset of the BTH and `pkt->paylen`. -/
def parseGrh (skb : RcvSkb) (offset paylen : ℕ) (grh : Bool) : Option (ℕ × ℕ) :=
  if grh then (if skb.len < offset + 40 then none else some (offset + 40, grhPaylen skb.hdr))
  else some (offset, paylen)

/-- `rxe_rcv` up to `hdr_check`. -/
def parsePkt (skb : RcvSkb) : Option PktInfo :=
  match parseLrh skb with
  | none => none
  | some (lrh, paylen, grh) =>
    match parseGrh skb lrh paylen grh with
    | none => none
    | some (offset, paylen) =>
      if skb.len < offset + 12 then none
      else
        let code := (skb.hdr offset).toNat
        let psn := beBytes skb.hdr (offset + 8) 4 % 2 ^ 24
        if skb.len < offset + rxeOpcodeLength code then none
        else some ⟨skb.hdr, grh, paylen, offset, code, psn, skb.portNum⟩

/-- `rxe_rcv`: where the packet is queued; a packet that is dropped is queued nowhere. -/
def rxeRcv (rxe : RcvDev) (skb : RcvSkb) (clones : List Bool) : List Delivery :=
  match parsePkt skb with
  | none => []
  | some pkt =>
    if pkt.bthQpn ≠ ibMulticastQpn then
      match hdrCheck rxe pkt with
      | none => []
      | some index => [rxeRcvPkt index pkt]
    else if hdrCheckMcast pkt then rxeRcvMcastPkt rxe pkt clones
    else []

/-! ### The payload of an accepted packet -/

/-- The payload, its padding and the ICRC lie inside the received bytes. -/
def PktInfo.PayloadInside (pkt : PktInfo) (len : ℕ) : Prop :=
  0 ≤ pkt.payloadSize ∧
    pkt.offset + rxeOpcodePayload pkt.opcode + pkt.payloadSize + pkt.bthPad + 4 ≤ len

/-- Where the BTH starts: after the LRH of an IB link and after the GRH, if there is one. -/
def bthOffset (skb : RcvSkb) : ℕ :=
  match skb.link with
  | .net => 40
  | .ib => if lrhLnh skb.hdr = 3 then 48 else 8

/-- The length field in the headers: that of the GRH as the driver reads it, or that of the
LRH in bytes, without the LRH. -/
def lengthField (skb : RcvSkb) : ℕ :=
  match skb.link with
  | .net => grhPaylen skb.hdr
  | .ib =>
    if lrhLnh skb.hdr = 3 then grhPaylen skb.hdr
    else (4 * lrhLength skb.hdr + 2 ^ 16 - 8) % 2 ^ 16

theorem parsePkt_some {skb : RcvSkb} {pkt : PktInfo} (h : parsePkt skb = some pkt) :
    pkt.hdr = skb.hdr ∧ pkt.offset = bthOffset skb ∧ pkt.paylen = lengthField skb ∧
      pkt.opcode = (skb.hdr (bthOffset skb)).toNat := by
  unfold parsePkt at h
  split at h
  · cases h
  · next lrh paylen grh hlrh =>
    split at h
    · cases h
    · next offset paylen' hgrh =>
      have hfields : offset = bthOffset skb ∧ paylen' = lengthField skb := by
        unfold parseLrh at hlrh
        unfold parseGrh at hgrh
        unfold bthOffset lengthField
        cases hlink : skb.link with
        | net =>
          rw [hlink] at hlrh
          cases hlrh
          rw [if_pos rfl] at hgrh
          split at hgrh <;> cases hgrh
          exact ⟨rfl, rfl⟩
        | ib =>
          simp only [hlink] at hlrh ⊢
          split at hlrh
          · cases hlrh
          · split at hlrh
            · cases hlrh
            · obtain ⟨rfl, rfl, rfl⟩ : 8 = lrh ∧ _ = paylen ∧ _ = grh := by
                simpa only [Option.some.injEq, Prod.mk.injEq] using hlrh
              by_cases hlnh : lrhLnh skb.hdr = 3
              · rw [if_pos (by simpa using hlnh)] at hgrh
                split at hgrh <;> cases hgrh
                rw [if_pos hlnh, if_pos hlnh]
                exact ⟨rfl, rfl⟩
              · rw [if_neg (by simpa using hlnh)] at hgrh
                cases hgrh
                rw [if_neg hlnh, if_neg hlnh]
                exact ⟨rfl, rfl⟩
      obtain ⟨hoffset, hpaylen⟩ := hfields
      split at h
      · cases h
      · dsimp only at h
        split at h
        · cases h
        · cases h
          exact ⟨rfl, hoffset, hpaylen, by rw [hoffset]⟩

theorem rcvMcastLoop_mem {rxe : RcvDev} {pkt : PktInfo} {d : Delivery} (qps : List ℕ) :
    ∀ clones, d ∈ rcvMcastLoop rxe pkt qps clones → ∃ index, d = rxeRcvPkt index pkt := by
  induction qps with
  | nil =>
    intro clones h
    cases h
  | cons index rest ih =>
    intro clones h
    unfold rcvMcastLoop at h
    split at h
    · exact ih clones h
    · split at h
      · rcases List.mem_cons.1 h with rfl | h
        · exact ⟨index, rfl⟩
        · -- the loop ends where a clone fails
          split at h
          · cases h
          · exact ih _ h
          · split at h
            · exact ih _ h
            · cases h
      · exact ih clones h

theorem rxeRcv_mem {rxe : RcvDev} {skb : RcvSkb} {clones : List Bool} {d : Delivery}
    (h : d ∈ rxeRcv rxe skb clones) :
    parsePkt skb = some d.pkt ∧ d.toResponder = d.pkt.hdrMask.req := by
  unfold rxeRcv at h
  split at h
  · cases h
  · next pkt hparse =>
    rw [hparse]
    suffices hd : ∃ index, d = rxeRcvPkt index pkt by
      obtain ⟨index, rfl⟩ := hd
      exact ⟨rfl, rfl⟩
    split at h
    · split at h
      · cases h
      · exact ⟨_, List.mem_singleton.1 h⟩
    · split at h
      · unfold rxeRcvMcastPkt at h
        split at h
        · cases h
        · exact rcvMcastLoop_mem _ _ h
      · cases h

/-- The payload of an accepted packet lies inside the buffer exactly when the length field
of its headers is large enough for the headers, the padding and the ICRC, and does not
exceed what was received. -/
theorem rxeRcv_payload_iff (rxe : RcvDev) (skb : RcvSkb) (clones : List Bool) (d : Delivery)
    (h : d ∈ rxeRcv rxe skb clones) :
    d.pkt.PayloadInside skb.len ↔
      rxeOpcodePayload (skb.hdr (bthOffset skb)).toNat +
          (skb.hdr (bthOffset skb + 1)).toNat / 16 % 4 + 4 ≤ lengthField skb ∧
        bthOffset skb + lengthField skb ≤ skb.len := by
  obtain ⟨hhdr, hoffset, hpaylen, hopcode⟩ := parsePkt_some (rxeRcv_mem h).1
  have hpad : d.pkt.bthPad = (skb.hdr (bthOffset skb + 1)).toNat / 16 % 4 := by
    rw [PktInfo.bthPad, PktInfo.bthFlags, hhdr, hoffset]
  unfold PktInfo.PayloadInside PktInfo.payloadSize
  rw [hpad, hpaylen, hopcode, hoffset]
  omega

/-- A device with one RC QP, number 2, whose peer has the interface id 2. -/
def rcvDev : RcvDev :=
  { qp := fun i => if i = 2 then some { type := .rc, dgidInterface := 2 } else none
    guidTbl := fun _ => 3 }

/-- The headers of a SEND_ONLY for QP 2 over Ethernet with a given length field. -/
def rcvHdr (paylen : ℕ) : ℕ → UInt8
  | 0 => 0x60
  | 4 => UInt8.ofNat (paylen / 256)
  | 5 => UInt8.ofNat paylen
  | 6 => 0x1b
  | 23 => 2
  | 39 => 3
  | 40 => 0x04
  | 42 => 0xff
  | 43 => 0xff
  | 47 => 2
  | _ => 0

set_option maxRecDepth 4096 in
/-- A packet with four bytes of payload whose length field is right. -/
theorem rxeRcv_payload_fits :
    ∃ d ∈ rxeRcv rcvDev ⟨.net, rcvHdr 20, 60, 1⟩ [], d.pkt.PayloadInside 60 :=
  ⟨_, List.mem_singleton.2 rfl, (rxeRcv_payload_iff rcvDev ⟨.net, rcvHdr 20, 60, 1⟩ [] _
    (List.mem_singleton.2 rfl)).2 (by decide)⟩

set_option maxRecDepth 4096 in
/-- A buffer that ends with the BTH is accepted with a length field of 1000: 984 bytes of
payload are read from behind its end.  With a length field of 0 the size underflows. -/
theorem rxeRcv_overread :
    (∃ d ∈ rxeRcv rcvDev ⟨.net, rcvHdr 1000, 52, 1⟩ [],
      d.toResponder ∧ d.pkt.offset = 40 ∧ d.pkt.payloadSize = 984) ∧
    ∃ d ∈ rxeRcv rcvDev ⟨.net, rcvHdr 0, 52, 1⟩ [], d.pkt.payloadSize = -16 :=
  ⟨⟨_, List.mem_singleton.2 rfl, rfl, rfl, rfl⟩, _, List.mem_singleton.2 rfl, rfl⟩

/-! ### The buffers of a multicast packet -/

/-- A buffer and its control block: the packet, and the QP it is tagged with. -/
structure McSkb where
  id : ℕ
  pkt : PktInfo
  qp : Option ℕ

/-- What `rxe_rcv_mcast_pkt` does with references and buffers. -/
inductive McEvent
  | clone (id : ℕ)
  | addRef (qp : ℕ)
  /-- `rxe_rcv_pkt` -/
  | rcv (skb : McSkb)
  /-- `kfree_skb` -/
  | free (id : ℕ)

def McEvent.cloned? : McEvent → Option ℕ
  | .clone id => some id
  | _ => none

def McEvent.ref? : McEvent → Option ℕ
  | .addRef qp => some qp
  | _ => none

def McEvent.handed? : McEvent → Option McSkb
  | .rcv skb => some skb
  | _ => none

/-- The buffer whose owner gives it away. -/
def McEvent.ended? : McEvent → Option ℕ
  | .rcv skb => some skb.id
  | .free id => some id
  | _ => none

/-- `check_type_state` and `check_keys` for a member of a group. -/
def mcPasses (rxe : RcvDev) (pkt : PktInfo) (index : ℕ) : Bool :=
  match rxe.qp index with
  | none => false
  | some qp => checkTypeState pkt qp && checkKeys rxe pkt pkt.bthQpn qp

/-- The loop of `rxe_rcv_mcast_pkt` and the `kfree_skb` behind it, where every `skb_clone`
succeeds: `skb` is the buffer in hand, `next` the number of the next clone. -/
def rcvMcastSkbs (rxe : RcvDev) : List ℕ → McSkb → ℕ → List McEvent
  | [], skb, _ => [.free skb.id]
  | index :: rest, skb, next =>
    if mcPasses rxe skb.pkt index then
      let rcv := [.addRef index, .rcv { skb with qp := some index }]
      -- the clone is made before the buffer in hand is tagged
      if rest.isEmpty then rcv
      else .clone next :: rcv ++ rcvMcastSkbs rxe rest { skb with id := next } (next + 1)
    else rcvMcastSkbs rxe rest skb next

/-- The members of the group a packet is for. -/
def mcMembers (rxe : RcvDev) (pkt : PktInfo) : Option (List ℕ) :=
  rxe.mcGrp (pkt.dgidPrefix * 2 ^ 64 + pkt.dgidInterface)

/-- `rxe_rcv_mcast_pkt` with the buffers; the one it is called with has number 0. -/
def rxeRcvMcastSkb (rxe : RcvDev) (pkt : PktInfo) : List McEvent :=
  match mcMembers rxe pkt with
  | none => [.free 0]
  | some qps => rcvMcastSkbs rxe qps ⟨0, pkt, none⟩ 1

theorem rcvMcastLoop_eq (rxe : RcvDev) (pkt : PktInfo) (qps : List ℕ) :
    rcvMcastLoop rxe pkt qps [] = (qps.filter (mcPasses rxe pkt)).map (rxeRcvPkt · pkt) := by
  induction qps with
  | nil => rfl
  | cons index rest ih =>
    unfold rcvMcastLoop
    rw [List.filter_cons, ih]
    unfold mcPasses
    cases rxe.qp index with
    | none => rfl
    | some qp =>
      dsimp only
      split
      · cases rest <;> rfl
      · rfl

/-- From a buffer in hand on: the members that pass get one buffer each, and the buffers that end
are the one in hand and then the clones. -/
theorem rcvMcastSkbs_spec (rxe : RcvDev) (qps : List ℕ) : ∀ skb next, ∃ k,
    (rcvMcastSkbs rxe qps skb next).filterMap McEvent.cloned? = List.range' next k ∧
    (rcvMcastSkbs rxe qps skb next).filterMap McEvent.ended? = skb.id :: List.range' next k ∧
    (rcvMcastSkbs rxe qps skb next).filterMap McEvent.ref? = qps.filter (mcPasses rxe skb.pkt) ∧
    ((rcvMcastSkbs rxe qps skb next).filterMap McEvent.handed?).map (fun s => (s.pkt, s.qp)) =
      (qps.filter (mcPasses rxe skb.pkt)).map fun i => (skb.pkt, some i) := by
  induction qps with
  | nil => exact fun skb next => ⟨0, rfl, rfl, rfl, rfl⟩
  | cons index rest ih =>
    intro skb next
    unfold rcvMcastSkbs
    by_cases hpass : mcPasses rxe skb.pkt index
    · rw [if_pos hpass, List.filter_cons_of_pos hpass]
      cases rest with
      | nil => exact ⟨0, rfl, rfl, rfl, rfl⟩
      | cons index' rest =>
        obtain ⟨k, hcloned, hended, href, hhanded⟩ := ih { skb with id := next } (next + 1)
        refine ⟨k + 1, ?_, ?_, ?_, ?_⟩
        · exact congrArg (next :: ·) hcloned
        · exact congrArg (skb.id :: ·) hended
        · exact congrArg (index :: ·) href
        · exact congrArg ((skb.pkt, some index) :: ·) hhanded
    · rw [if_neg hpass, List.filter_cons_of_neg hpass]
      exact ih skb next

/-- A multicast packet is handed to the members that pass the checks, to each in one buffer that
carries it, is tagged with the member and comes with one reference to it; every buffer, the first
and the clones, is handed over or freed once. -/
theorem rxe_rcv_mcast_delivers (rxe : RcvDev) (pkt : PktInfo) :
    let es := rxeRcvMcastSkb rxe pkt
    let passing := ((mcMembers rxe pkt).getD []).filter (mcPasses rxe pkt)
    (es.filterMap McEvent.handed?).map (fun s => (s.pkt, s.qp)) =
      passing.map (fun i => (pkt, some i)) ∧
    rxeRcvMcastPkt rxe pkt [] = passing.map (rxeRcvPkt · pkt) ∧
    es.filterMap McEvent.ref? = passing ∧
    ∃ k, es.filterMap McEvent.cloned? = List.range' 1 k ∧
      es.filterMap McEvent.ended? = List.range (k + 1) := by
  unfold rxeRcvMcastSkb rxeRcvMcastPkt
  change _ ∧
      (match mcMembers rxe pkt with | none => [] | some qps => rcvMcastLoop rxe pkt qps []) = _ ∧ _
  cases mcMembers rxe pkt with
  | none => exact ⟨rfl, rfl, rfl, 0, rfl, rfl⟩
  | some qps =>
    obtain ⟨k, hcloned, hended, href, hhanded⟩ := rcvMcastSkbs_spec rxe qps ⟨0, pkt, none⟩ 1
    refine ⟨hhanded, rcvMcastLoop_eq rxe pkt qps, href, k, hcloned, hended.trans ?_⟩
    rw [List.range_eq_range', List.range'_succ]

end Rxe
