/-
Confinement of remote accesses (`check_rkey`, `mem_check_range`, `rxe_mem_copy`).

`remoteAccess` is the access a pass of the responder makes for an RDMA WRITE, an RDMA READ
or an atomic: the right it needs, the region, and the range of addresses that has passed
the check of `mem_check_range`.  The check adds address and length modulo `2 ^ 64`, a DMA
region passes every check, a resource that holds the response to an atomic is read as
if it held a region, and the state of a region is looked at when its key is checked only.

* `remote_access_iff` — in every run, the bytes of an access lie in a valid MR or FMR of
  the QP's domain that grants the right under the key of the request, exactly when the
  pointer is one to a region that is still valid, the region is not a DMA region and the
  range does not wrap;
* `remote_write_escapes` — a write behind a region whose range wraps to address 0;
* `stored_byte_granted` — a byte is stored for the peer in the pages of a region only that
  grants the right under the key.

The ghost value of a run (`Requests`) remembers which request an access is made for: a
packet in the middle of an RDMA WRITE carries no key, and `read_reply` may be answering an
earlier packet than the one at hand.
-/
import Rxe.RespPass

namespace Rxe

variable {p : Pkt} {dev : Dev} {c : Ctx} {k : RespSys × Requests}

/-! ### Requests -/

/-- An RDMA or atomic request. -/
def Pkt.remote (p : Pkt) : Bool := p.mask.read || p.mask.write || p.mask.atomic

/-- The request carries the key of its region. -/
def Pkt.named (p : Pkt) : Bool := p.mask.reth || p.mask.atomic

/-- The key a request carries. -/
def Pkt.key (p : Pkt) : ℕ := if p.mask.atomic then p.atmeth.rkey else p.reth.rkey

/-- The right a request needs. -/
def Pkt.access (p : Pkt) : Access :=
  if p.mask.read then .remoteRead else if p.mask.write then .remoteWrite else .remoteAtomic

/-- The first packet of an RDMA WRITE of several packets. -/
def Pkt.startsWrite (p : Pkt) : Prop :=
  p.opcode = .rcRdmaWriteFirst ∨ p.opcode = .ucRdmaWriteFirst

/-- A packet `rxe_rcv` hands to a QP of a type, with any fields of 64 and 32 bits. -/
structure Deliverable (type : QpType) (p : Pkt) : Prop where
  transport : p.opcode.transport = type
  va_lt : p.reth.va < 2 ^ 64
  len_lt : p.reth.len < 2 ^ 32
  atomicVa_lt : p.atmeth.va < 2 ^ 64

/-- The last request executed was the first or a middle packet of an RDMA WRITE. -/
def midWrite (type : QpType) (o : Option Opcode) : Prop :=
  match type with
  | .uc => o = some .ucRdmaWriteFirst ∨ o = some .ucRdmaWriteMiddle
  | _ => o = some .rcRdmaWriteFirst ∨ o = some .rcRdmaWriteMiddle

/-! Facts of the opcode table. -/

theorem key_of_read (h : p.mask.read) : p.key = p.reth.rkey := by
  refine if_neg ?_
  obtain ⟨o⟩ := p
  cases o <;> first | exact Bool.false_ne_true | cases h

theorem access_of_read (h : p.mask.read) : p.access = .remoteRead := if_pos h

theorem access_of_write (h : p.mask.write) : p.access = .remoteWrite := by
  obtain ⟨o⟩ := p
  cases o <;> first | rfl | cases h

theorem access_of_atomic (h : p.mask.atomic) : p.access = .remoteAtomic := by
  obtain ⟨o⟩ := p
  cases o <;> first | rfl | cases h

variable {type : QpType} {pd key m : ℕ}

theorem startsWrite_of_midWrite (h : midWrite type (some p.opcode)) (hnamed : p.named) :
    p.startsWrite := by
  unfold midWrite at h
  split at h <;> rcases h with h | h <;> rw [Option.some_inj] at h
  · exact Or.inr h
  · simp [Pkt.named, Pkt.mask, h, rxeOpcodeMask] at hnamed
  · exact Or.inl h
  · simp [Pkt.named, Pkt.mask, h, rxeOpcodeMask] at hnamed

theorem not_midWrite_none : ¬ midWrite type none := by
  unfold midWrite
  split <;> rintro (h | h) <;> cases h

theorem write_of_midWrite (h : midWrite type (some p.opcode)) : p.mask.write := by
  unfold midWrite at h
  split at h <;> rcases h with h | h <;> rw [Option.some_inj] at h <;>
    simp [Pkt.mask, h, rxeOpcodeMask]

/-! ### Accesses -/

/-- An access of the responder: the right it needs, the region (`none` where the pointer is
not one to a region), and the addresses. -/
structure RemoteAccess where
  kind : Access
  region : Option ℕ
  va : ℕ
  len : ℕ
  deriving DecidableEq, Repr

/-- The range check in front of a copy lets it through. -/
def rangeChecked (dev : Dev) (region : Option ℕ) (va len : ℕ) : Bool :=
  match region.bind dev.mem with
  | none => true
  | some mem => mem.type = .dma || memCheckRange mem va len

/-- An access that passes the range check. -/
def checkedAccess (dev : Dev) (a : RemoteAccess) : Option RemoteAccess :=
  if rangeChecked dev a.region a.va a.len then some a else none

/-- The access of `execute`; a read is answered in `read_reply`. -/
def executeAccess (c : Ctx) (pkt : Pkt) : Option RemoteAccess :=
  if pkt.mask.send then none
  else if pkt.mask.write then
    checkedAccess c.dev ⟨.remoteWrite, c.qp.resp.mr, c.qp.resp.va, pkt.payload.length⟩
  else if pkt.mask.read then none
  -- `process_atomic` looks at the state of the region first
  else if pkt.mask.atomic && (respMem c).all (·.state = .valid) then
    checkedAccess c.dev ⟨.remoteAtomic, c.qp.resp.mr, pkt.atmeth.va, 8⟩
  else none

/-- The access of `read_reply`, where the skb of the response has been allocated. -/
def readReplyAccess (c : Ctx) (pkt : Pkt) : Option RemoteAccess :=
  let c := if c.qp.resp.res.isNone then initReadRes c pkt else c
  match c.qp.resp.res.bind fun i => c.qp.resp.resources[i]? with
  | none => none
  | some res =>
    let payload : ℤ := min (s32 res.resid) (s32 c.qp.mtu)
    if c.takeSkb.1 ∧ 0 ≤ payload then
      checkedAccess c.dev ⟨.remoteRead, res.region, res.va, payload.toNat⟩
    else none

/-- The access a pass of the responder makes on behalf of its peer. -/
def remoteAccess (s : RespCfg) : Option RemoteAccess :=
  match s.state, s.pkt with
  | .execute, some pkt => executeAccess s.c pkt
  | .readReply, some pkt => readReplyAccess s.c pkt
  | _, _ => none

/-- A region belongs to the QP's domain and grants a right under a key.  It was valid when the
key was checked. -/
def Granted (regions : ℕ → Option Mem) (pd : ℕ) (access : Access) (key m : ℕ) : Prop :=
  ∃ mem, regions m = some mem ∧ mem.pd = pd ∧ access ∈ mem.access ∧ mem.rkey = key

/-- Every byte of the access lies in a region that grants it under the key: no address
wraps. -/
def RemoteAccess.Confined (a : RemoteAccess) (dev : Dev) (pd key : ℕ) : Prop :=
  ∀ k < a.len, ∃ m mem, a.region = some m ∧ dev.mem m = some mem ∧ mem.state = .valid ∧
    (mem.type = .mr ∨ mem.type = .fmr) ∧ mem.pd = pd ∧ a.kind ∈ mem.access ∧ mem.rkey = key ∧
    mem.iova ≤ a.va + k ∧ a.va + k < mem.iova + mem.length

/-- The pointer is one to a region other than a DMA region that has not been deregistered, and
the range does not wrap (a region may end at the top of the address space). -/
def RemoteAccess.Plain (a : RemoteAccess) (dev : Dev) : Prop :=
  a.len = 0 ∨ ∃ m mem, a.region = some m ∧ dev.mem m = some mem ∧ mem.state = .valid ∧
    mem.type ≠ .dma ∧ (a.va + a.len < 2 ^ 64 ∨ mem.iova + mem.length = 2 ^ 64)

theorem lookupMem_some {access : Option Access} {type : LookupType}
    (h : lookupMem dev pd access key type = some m) :
    ∃ mem, dev.mem m = some mem ∧ mem.state = .valid ∧ mem.pd = pd ∧
      (∀ a ∈ access, a ∈ mem.access) ∧ (type = .remote → mem.rkey = key) := by
  obtain ⟨-, h⟩ := Option.ite_none_right_eq_some.1 h
  obtain ⟨-, hany⟩ := Option.filter_eq_some_iff.1 h
  obtain ⟨mem, hmem, hanswers⟩ := (Option.any_eq_true _ _).1 hany
  obtain ⟨hkey, hpd, haccess, hvalid⟩ := memAnswers_iff.1 hanswers
  refine ⟨mem, hmem, hvalid, hpd, fun a ha => ?_, fun htype => ?_⟩
  · exact of_not_not fun hno => haccess ⟨a, ha, hno⟩
  · exact of_not_not fun hno => hkey (Or.inr ⟨htype, hno⟩)

theorem lookupMem_granted {access : Access}
    (h : lookupMem dev pd (some access) key .remote = some m) :
    Granted dev.mem pd access key m := by
  obtain ⟨mem, hmem, -, hpd, haccess, hkey⟩ := lookupMem_some h
  exact ⟨mem, hmem, hpd, haccess access rfl, hkey rfl⟩

theorem confined_iff {a : RemoteAccess} (hchecked : rangeChecked dev a.region a.va a.len)
    (hregion : ∀ m ∈ a.region, Granted dev.mem pd a.kind key m) (hva : a.va < 2 ^ 64)
    (hlen : a.len < 2 ^ 64)
    (hwrap : ∀ m mem, dev.mem m = some mem → mem.type ≠ .dma → mem.iova + mem.length ≤ 2 ^ 64) :
    a.Confined dev pd key ↔ a.Plain dev := by
  constructor
  · intro h
    by_cases hzero : a.len = 0
    · exact Or.inl hzero
    -- the last byte is inside the region, which ends below 2^64
    · obtain ⟨m, mem, hm, hmem, hvalid, htype, -, -, -, -, hlt⟩ := h (a.len - 1) (by omega)
      have hdma : mem.type ≠ .dma := by
        rcases htype with h | h <;> rw [h] <;> decide
      have hend := hwrap m mem hmem hdma
      exact Or.inr ⟨m, mem, hm, hmem, hvalid, hdma, by omega⟩
  · rintro (hzero | ⟨m, mem, hm, hmem, hvalid, hdma, hnowrap⟩) k hk
    · omega
    · obtain ⟨mem', hmem', hpd, haccess, hkey⟩ := hregion m hm
      obtain rfl : mem = mem' := Option.some_inj.1 (hmem.symm.trans hmem')
      have hend := hwrap m mem hmem hdma
      have hcheck : memCheckRange mem a.va a.len = true := by
        simpa [rangeChecked, hm, hmem, hdma] using hchecked
      -- `mem_check_range` compares the two ends modulo 2^64, and neither wraps
      have hrange : (mem.type = .mr ∨ mem.type = .fmr) ∧ mem.iova ≤ a.va ∧
          (a.va + a.len) % 2 ^ 64 ≤ (mem.iova + mem.length) % 2 ^ 64 := by
        unfold memCheckRange at hcheck
        split at hcheck
        · exact absurd ‹_› hdma
        · next ht => simp at hcheck; exact ⟨Or.inl ht, hcheck⟩
        · next ht => simp at hcheck; exact ⟨Or.inr ht, hcheck⟩
        · cases hcheck
      obtain ⟨htype, hlo, hhi⟩ := hrange
      exact ⟨m, mem, hm, hmem, hvalid, htype, hpd, haccess, hkey, by omega, by omega⟩

/-! ### The request an access is made for -/

/-- Which requests the responder is working for: `target` is the last request with a key
that `check_rkey` has looked at, `reader` the request `read_reply` answers. -/
structure Requests where
  target : Option Pkt := none
  reader : Option Pkt := none

/-- The change of the ghost value in a pass. -/
def Requests.upd (g : Requests) (s : RespCfg) : Requests :=
  match s.state, s.pkt with
  | .chkRkey, some p => if p.named then { g with target := some p } else g
  | .duplicateRequest, some p =>
    if (duplicateRequest s.c p).1 = .readReply then { g with reader := some p } else g
  | .readReply, some p => if s.c.qp.resp.res.isNone then { g with reader := some p } else g
  | _, _ => g

/-- The request for which a pass makes its access: an RDMA WRITE without a key continues
the one that carried the key. -/
def Requests.asking (g : Requests) (s : RespCfg) : Option Pkt :=
  match s.state with
  | .readReply => if s.c.qp.resp.res.isNone then s.pkt else g.reader
  | _ => g.target

/-- A resource that points to a region points to one that may be read under its key. -/
structure ResOk (regions : ℕ → Option Mem) (pd : ℕ) (res : RespRes) : Prop where
  granted : ∀ m, res.ptr = .mr m → Granted regions pd .remoteRead res.rkey m
  va_lt : res.va < 2 ^ 64
  resid_lt : res.resid < 2 ^ 32

/-- What holds between two passes. -/
structure KeyInv (g : Requests) (c : Ctx) : Prop where
  type : c.qp.type = .rc ∨ c.qp.type = .uc
  queued : ∀ p ∈ c.qp.reqPkts, Deliverable c.qp.type p
  resource : ∀ res ∈ c.qp.resp.resources, ResOk c.dev.mem c.qp.pd res
  key : ∀ t ∈ g.target, c.qp.resp.rkey = t.key
  mid : midWrite c.qp.type c.qp.resp.opcode → ∃ t ∈ g.target, t.startsWrite
  reading : ∀ i, c.qp.resp.res = some i → ∃ r ∈ g.reader, r.mask.read ∧
    ∀ res, c.qp.resp.resources[i]? = some res → res.rkey = r.key
  va_lt : c.qp.resp.va < 2 ^ 64
  resid_lt : c.qp.resp.resid < 2 ^ 32

/-- The packet has passed `check_op_seq`: one with a key is not in the middle of a write,
one without continues the write that `target` started. -/
structure InSeq (g : Requests) (c : Ctx) (p : Pkt) : Prop where
  fresh : p.named → ¬ midWrite c.qp.type c.qp.resp.opcode
  continues : p.remote → p.named = false → ∃ t ∈ g.target, t.startsWrite

/-- The packet has passed `check_rkey`. -/
structure Checked (g : Requests) (c : Ctx) (p : Pkt) : Prop extends InSeq g c p where
  own : p.named → g.target = some p
  mr : p.remote → ∃ m, c.qp.resp.mr = some m ∧ Granted c.dev.mem c.qp.pd p.access c.qp.resp.rkey m
  len : p.mask.write → p.payload.length ≤ c.qp.resp.resid

/-- What is known about the packet in each state. -/
def keyPhase (g : Requests) (c : Ctx) (p : Pkt) : RespState → Prop
  -- there is no packet before `get_req`
  | .getReq => False
  -- in the error state `check_resource` only flushes
  | .chkResource => c.qp.resp.state ≠ .error → InSeq g c p
  | .chkOpValid | .chkLength | .chkRkey => InSeq g c p
  | .execute => Checked g c p
  | .readReply => c.qp.resp.res = none → Checked g c p ∧ p.mask.read
  | _ => True

/-- The invariant of the loop. -/
structure KeyLoop (g : Requests) (state : RespState) (pkt : Option Pkt) (c : Ctx) : Prop
    extends KeyInv g c where
  deliverable : ∀ p ∈ pkt, Deliverable c.qp.type p
  phase : ∀ p ∈ pkt, keyPhase g c p state

theorem not_writeNext_of_named (h : p.named) :
    p.opcode ∉ rcWriteNext ∧ p.opcode ∉ ucWriteNext := by
  constructor <;> intro hmem <;>
    simp only [rcWriteNext, ucWriteNext, List.mem_cons, List.not_mem_nil, or_false] at hmem <;>
    rcases hmem with ho | ho | ho <;> simp [Pkt.named, Pkt.mask, ho, rxeOpcodeMask] at h

theorem writeNext_of_remote (hremote : p.remote) (hnamed : p.named = false) :
    (p.opcode.transport = .rc → p.opcode ∈ rcWriteNext ∧ p.opcode ∉ rcSendNext) ∧
      (p.opcode.transport = .uc → p.opcode ∈ ucWriteNext ∧ p.opcode ∉ ucSendNext) := by
  unfold Pkt.remote Pkt.mask at hremote
  unfold Pkt.named Pkt.mask at hnamed
  generalize p.opcode = o at hremote hnamed
  cases o <;> simp_all [rxeOpcodeMask, rcWriteNext, rcSendNext, ucWriteNext, ucSendNext,
    Opcode.transport, Opcode.isUc, Opcode.isUd]

theorem checkOpSeq_inSeq (htype : c.qp.type = .rc ∨ c.qp.type = .uc)
    (hdel : Deliverable c.qp.type p) (h : (checkOpSeq c p).1 = .chkOpValid) :
    (p.named → ¬ midWrite c.qp.type c.qp.resp.opcode) ∧
      (p.remote → p.named = false → midWrite c.qp.type c.qp.resp.opcode) := by
  have htransport := hdel.transport
  have hnext := fun hr hn => writeNext_of_remote (p := p) hr hn
  unfold checkOpSeq at h
  unfold midWrite
  rcases htype with ht | ht <;> rw [ht] at h htransport ⊢ <;> dsimp only at h ⊢
  · replace hnext := fun hr hn => (hnext hr hn).1 htransport
    split at h
    -- in the middle of a send only packets of a send pass
    · next ho => rw [ho]; exact ⟨fun _ => by simp, fun hr hn => by simp [(hnext hr hn).2] at h⟩
    · next ho => rw [ho]; exact ⟨fun _ => by simp, fun hr hn => by simp [(hnext hr hn).2] at h⟩
    · next ho =>
      exact ⟨fun hn => by simp [(not_writeNext_of_named hn).1] at h, fun _ _ => Or.inl ho⟩
    · next ho =>
      exact ⟨fun hn => by simp [(not_writeNext_of_named hn).1] at h, fun _ _ => Or.inr ho⟩
    · next h₁ h₂ =>
      exact ⟨fun _ => by rintro (ho | ho) <;> simp_all, fun hr hn => by simp [hnext hr hn] at h⟩
  · replace hnext := fun hr hn => (hnext hr hn).2 htransport
    split at h
    · next ho => rw [ho]; exact ⟨fun _ => by simp, fun hr hn => by simp [(hnext hr hn).2] at h⟩
    · next ho => rw [ho]; exact ⟨fun _ => by simp, fun hr hn => by simp [(hnext hr hn).2] at h⟩
    · next ho =>
      exact ⟨fun hn => by simp [(not_writeNext_of_named hn).2] at h, fun _ _ => Or.inl ho⟩
    · next ho =>
      exact ⟨fun hn => by simp [(not_writeNext_of_named hn).2] at h, fun _ _ => Or.inr ho⟩
    · next h₁ h₂ =>
      exact ⟨fun _ => by rintro (ho | ho) <;> simp_all, fun hr hn => by simp [hnext hr hn] at h⟩

/-! ### The invariant is kept by every pass -/

theorem getElem?_modify_some {α : Type} {l : List α} {i j : ℕ} {f : α → α} {a : α}
    (h : (l.modify i f)[j]? = some a) : ∃ b, l[j]? = some b ∧ a = if i = j then f b else b := by
  rw [List.getElem?_modify] at h
  obtain ⟨b, hb, rfl⟩ := Option.map_eq_some_iff.1 h
  exact ⟨b, hb, by split <;> rfl⟩

theorem forall_mem_modify {α : Type} {R : α → Prop} {f : α → α} {l : List α} (i : ℕ)
    (hf : ∀ a ∈ l, R a → R (f a)) (h : ∀ a ∈ l, R a) : ∀ a ∈ l.modify i f, R a := by
  intro a ha
  obtain ⟨j, hj⟩ := List.mem_iff_getElem?.1 ha
  obtain ⟨b, hb, rfl⟩ := getElem?_modify_some hj
  have hmem := List.mem_of_getElem? hb
  split
  · exact hf b hmem (h b hmem)
  · exact h b hmem

section Step

variable {g : Requests} {pkt : Option Pkt} {p : Pkt} {c : Ctx} {state state' : RespState}

theorem keyPhase_of_not_working (g : Requests) (c : Ctx) (p : Pkt) (h : state.working = false) :
    keyPhase g c p state := by
  cases state <;> trivial

theorem KeyLoop.leave (h : KeyLoop g state pkt c) (hstate : state'.working = false) :
    KeyLoop g state' pkt c :=
  { h with phase := fun p _ => keyPhase_of_not_working g c p hstate }

theorem KeyInv.setRes (h : KeyInv g c) (i : ℕ) {f : RespRes → RespRes}
    (hok : ∀ r, ResOk c.dev.mem c.qp.pd r → ResOk c.dev.mem c.qp.pd (f r))
    (hkey : ∀ r, (f r).rkey = r.rkey) : KeyInv g (setRes c i f) := by
  refine { h with resource := forall_mem_modify i (fun r _ => hok r) h.resource, reading := ?_ }
  intro j hj
  obtain ⟨r, hr, hread, hres⟩ := h.reading j hj
  refine ⟨r, hr, hread, fun res hget => ?_⟩
  obtain ⟨b, hb, rfl⟩ := getElem?_modify_some hget
  rw [← hres b hb]
  split
  · exact hkey b
  · rfl

theorem checkOpSeq_key (h : KeyLoop g .chkOpSeq (some p) c) :
    KeyLoop g (checkOpSeq c p).1 (some p) (checkOpSeq c p).2 := by
  have hdel := h.deliverable p rfl
  obtain ⟨drop, hc⟩ := checkOpSeq_frame c p
  have hloop : KeyLoop g .chkOpSeq (some p) (checkOpSeq c p).2 := by
    rw [hc]
    exact { h with phase := fun _ _ => trivial }
  rcases checkOpSeq_state c p with hvalid | hleave
  · obtain ⟨hfresh, hcont⟩ := checkOpSeq_inSeq h.type hdel hvalid
    have hseq : InSeq g (checkOpSeq c p).2 p := by
      rw [hc]
      exact ⟨hfresh, fun hr hn => h.mid (hcont hr hn)⟩
    rw [hvalid]
    refine { hloop with phase := ?_ }
    rintro q hq
    cases hq
    exact hseq
  · exact hloop.leave hleave

theorem payload_le_of_lengthOk {mtu resid : ℕ} (h : writeLengthOk mtu resid p) :
    p.payload.length ≤ resid := by
  unfold writeLengthOk at h
  split at h <;> simp at h <;> omega

theorem checkRkey_cases (c : Ctx) (p : Pkt) :
    (p.remote = false ∧ checkRkey c p = (.execute, c)) ∨
    p.remote ∧ ((∃ state, state.working = false ∧ checkRkey c p = (state, setTarget c p)) ∨
      ∃ m, checkRkey c p = (.execute, { setTarget c p with qp.resp.mr := some m }) ∧
        Granted c.dev.mem c.qp.pd p.access (setTarget c p).qp.resp.rkey m ∧
        (p.mask.write → writeLengthOk c.qp.mtu (setTarget c p).qp.resp.resid p)) := by
  obtain ⟨va, rkey, resid, htarget⟩ := setTarget_frame c p
  rcases checkRkey_outcome c p with h | ⟨hremote, ⟨state, hstate, h⟩ | ⟨m, h, hlookup, hlen⟩⟩
  · exact Or.inl h
  · refine Or.inr ⟨hremote, Or.inl ⟨state, ?_, h⟩⟩
    rcases hstate with rfl | rfl <;> rfl
  · have hgranted := lookupMem_granted hlookup
    refine Or.inr ⟨hremote, Or.inr ⟨m, h, ?_, ?_⟩⟩
    · rw [htarget] at hgranted ⊢
      exact hgranted
    · rw [htarget] at hlen ⊢
      exact hlen

theorem setTarget_fields (hdel : Deliverable c.qp.type p) (hremote : p.remote)
    (hva : c.qp.resp.va < 2 ^ 64) (hresid : c.qp.resp.resid < 2 ^ 32) :
    (setTarget c p).qp.resp.va < 2 ^ 64 ∧ (setTarget c p).qp.resp.resid < 2 ^ 32 ∧
      (setTarget c p).qp.resp.rkey = if p.named then p.key else c.qp.resp.rkey := by
  unfold setTarget Pkt.named Pkt.key
  split
  · next hrw =>
    have hatomic : p.mask.atomic = false := (Bool.or_eq_true_iff.1 hrw).elim
      (fun h => (Pkt.mask_of_read h).2.2.2) fun h => (Pkt.mask_of_write h).2
    split
    · next hreth => exact ⟨hdel.va_lt, hdel.len_lt, by simp [hreth, hatomic]⟩
    · next hreth => exact ⟨hva, hresid, by simp [hreth, hatomic]⟩
  · next hrw =>
    have hatomic : p.mask.atomic := by simpa [Pkt.remote, hrw] using hremote
    exact ⟨hdel.atomicVa_lt, (by decide : 8 < 2 ^ 32), by simp [hatomic]⟩

theorem upd_chkRkey (g : Requests) (p : Pkt) (c : Ctx) :
    g.upd ⟨.chkRkey, some p, c⟩ = if p.named then { g with target := some p } else g := rfl

theorem checkRkey_key (h : KeyLoop g .chkRkey (some p) c) :
    KeyLoop (g.upd ⟨.chkRkey, some p, c⟩) (checkRkey c p).1 (some p) (checkRkey c p).2 := by
  have hdel := h.deliverable p rfl
  have hseq : InSeq g c p := h.phase p rfl
  rcases checkRkey_cases c p with ⟨hlocal, heq⟩ | ⟨hremote, hcases⟩
  · have hnamed : p.named = false := by
      unfold Pkt.remote Pkt.mask at hlocal
      unfold Pkt.named Pkt.mask
      generalize p.opcode = o at hlocal
      cases o <;> first | rfl | cases hlocal
    rw [heq, upd_chkRkey, if_neg (by simp [hnamed])]
    refine { h with phase := ?_ }
    rintro q hq
    cases hq
    refine { hseq with own := ?_, mr := ?_, len := ?_ }
    · simp [hnamed]
    · simp [hlocal]
    · intro hw
      simp [Pkt.remote, hw] at hlocal
  · obtain ⟨hva, hresid, hkey⟩ := setTarget_fields hdel hremote h.va_lt h.resid_lt
    obtain ⟨va, rkey, resid, htarget⟩ := setTarget_frame c p
    -- the target and the ghost value change together
    have hinv : KeyInv (g.upd ⟨.chkRkey, some p, c⟩) (setTarget c p) := by
      rw [htarget] at hva hresid hkey ⊢
      rw [upd_chkRkey]
      by_cases hnamed : p.named
      · rw [if_pos hnamed] at hkey ⊢
        exact { h with
          key := fun t ht => by cases ht; exact hkey
          mid := fun hmid => absurd hmid (hseq.fresh hnamed)
          va_lt := hva
          resid_lt := hresid }
      · rw [if_neg hnamed] at hkey ⊢
        exact { h with
          key := fun t ht => hkey.trans (h.key t ht)
          va_lt := hva
          resid_lt := hresid }
    have hdels : ∀ q ∈ some p, Deliverable (setTarget c p).qp.type q := by
      rw [htarget]
      exact h.deliverable
    rcases hcases with ⟨state, hstate, heq⟩ | ⟨m, heq, hgranted, hlen⟩
    · rw [heq]
      exact { hinv with
        deliverable := hdels
        phase := fun q _ => keyPhase_of_not_working _ _ q hstate }
    · rw [heq]
      refine { hinv with deliverable := hdels, phase := ?_ }
      rintro q hq
      cases hq
      rw [htarget] at hgranted hlen ⊢
      have hfit := fun hwrite => payload_le_of_lengthOk (hlen hwrite)
      rw [upd_chkRkey]
      by_cases hnamed : p.named
      · rw [if_pos hnamed]
        exact
          { fresh := hseq.fresh
            continues := fun _ hn => by simp [hnamed] at hn
            own := fun _ => rfl
            mr := fun _ => ⟨m, rfl, hgranted⟩
            len := hfit }
      · rw [if_neg hnamed]
        exact
          { fresh := hseq.fresh
            continues := hseq.continues
            own := fun hn => absurd hn hnamed
            mr := fun _ => ⟨m, rfl, hgranted⟩
            len := hfit }

theorem executeData_target (hva : c.qp.resp.va < 2 ^ 64) (hresid : c.qp.resp.resid < 2 ^ 32) :
    (executeData c p).2.qp.resp.va < 2 ^ 64 ∧ (executeData c p).2.qp.resp.resid < 2 ^ 32 := by
  refine executeData_inv (P := fun d => d.qp.resp.va < 2 ^ 64 ∧ d.qp.resp.resid < 2 ^ 32)
    (fun d data h => ?_) (fun _ d h => ?_) (fun d h => ?_) ⟨hva, hresid⟩
  · obtain ⟨byte, rq, srqWqe, hd⟩ := sendDataIn_frame d data
    rw [hd]
    exact h
  · unfold writeDataIn
    split
    · exact h
    · split
      · exact h
      · exact ⟨Nat.mod_lt _ (by decide), Nat.lt_of_le_of_lt (Nat.sub_le _ _) h.2⟩
  · obtain ⟨byte, orig, hd⟩ := processAtomic_frame d p
    rw [hd]
    exact h

theorem executeDone_leave (c : Ctx) (p : Pkt) : (executeDone c p).1.working = false := by
  rcases executeDone_next c p with ⟨-, h⟩ | ⟨-, h | h⟩ <;> rw [h] <;> rfl

theorem execute_key (h : KeyLoop g .execute (some p) c) :
    KeyLoop g (execute c p).1 (some p) (execute c p).2 := by
  have hchecked : Checked g c p := h.phase p rfl
  unfold execute
  split
  · next hread =>
    refine { h with phase := ?_ }
    rintro q hq hres
    cases hq
    refine ⟨{ hchecked with }, ?_⟩
    simp at hread
    exact hread.2
  · obtain ⟨byte, rq, srqWqe, va, resid, orig, hdata⟩ := executeData_frame c p
    obtain ⟨hva, hresid⟩ := executeData_target (p := p) h.va_lt h.resid_lt
    have hinv : KeyInv g (executeData c p).2 := by
      rw [hdata] at hva hresid ⊢
      exact { h with va_lt := hva, resid_lt := hresid }
    have hdels : ∀ q ∈ some p, Deliverable (executeData c p).2.qp.type q := by
      rw [hdata]
      exact h.deliverable
    split
    · next err c' herr =>
      have hleave := executeData_leave (by rw [herr])
      rw [herr] at hinv hdels
      exact { hinv with
        deliverable := hdels
        phase := fun q _ => keyPhase_of_not_working g c' q hleave }
    · next c' herr =>
      have htype : c'.qp.type = c.qp.type := by
        rw [herr] at hdata
        rw [show c' = _ from hdata]
      rw [herr] at hinv hdels
      -- the new `resp.opcode`: a first packet is the target, a later one continues it
      have hmid : midWrite c'.qp.type (some p.opcode) → ∃ t ∈ g.target, t.startsWrite := by
        intro hmid
        by_cases hnamed : p.named
        · exact ⟨p, hchecked.own hnamed, startsWrite_of_midWrite hmid hnamed⟩
        · exact hchecked.continues (by simp [Pkt.remote, write_of_midWrite hmid])
            (by simpa using hnamed)
      unfold executeDone
      refine { hinv with deliverable := hdels, mid := hmid, phase := ?_ }
      intro q _
      exact keyPhase_of_not_working g _ q (executeDone_leave c' p)

theorem region_eq_some {r : RespRes} (h : r.region = some m) : r.ptr = .mr m := by
  unfold RespRes.region ResPtr.region at h
  split at h
  · next hptr => rw [hptr, Option.some_inj.1 h]
  · cases h

theorem initReadRes_key (h : KeyInv g c) (hchecked : Checked g c p) (hread : p.mask.read) :
    KeyInv { g with reader := some p } (initReadRes c p) := by
  have hnamed : p.named := by simp [Pkt.named, (Pkt.mask_of_read hread).1]
  have hkey : c.qp.resp.rkey = p.key := h.key p (hchecked.own hnamed)
  obtain ⟨m, hm, hgranted⟩ := hchecked.mr (by simp [Pkt.remote, hread])
  rw [access_of_read hread] at hgranted
  obtain ⟨head, hc⟩ := initReadRes_frame c p
  rw [hc]
  refine { h with resource := ?_, reading := ?_ }
  · refine forall_mem_modify c.qp.resp.resHead (fun r _ _ => ⟨fun m' hm' => ?_, ?_, ?_⟩) h.resource
    · dsimp only [RespRes.startRead] at hm'
      rw [hm] at hm'
      cases hm'
      exact hgranted
    · exact h.va_lt
    · exact h.resid_lt
  · intro j hj
    cases hj
    refine ⟨p, rfl, hread, fun res hres => ?_⟩
    obtain ⟨r, -, rfl⟩ := getElem?_modify_some hres
    rw [if_pos rfl]
    exact hkey

theorem resOk_advance {regions : ℕ → Option Mem} (n : ℕ) {r : RespRes} (h : ResOk regions pd r) :
    ResOk regions pd (r.advance n) :=
  { h with
    va_lt := Nat.mod_lt _ (by decide)
    resid_lt := Nat.lt_of_le_of_lt (Nat.sub_le _ _) h.resid_lt }

theorem readReplyRes_key (h : KeyInv g c) (hdel : Deliverable c.qp.type p) (i : ℕ) (r : RespRes) :
    KeyLoop g (readReplyRes c p i r).1 (some p) (readReplyRes c p i r).2 := by
  obtain ⟨skb, es, -, hleave, hcases⟩ := readReplyRes_cases c p i r
  have hstart := h.setRes i (f := RespRes.started) (fun _ hr => { hr with }) fun _ => rfl
  have hdels : ∀ q ∈ some p, Deliverable c.qp.type q := by
    rintro q hq
    cases hq
    exact hdel
  have hloop : ∀ c', KeyInv g c' → c'.qp.type = c.qp.type →
      KeyLoop g (readReplyRes c p i r).1 (some p) c' := by
    intro c' hc' htype
    exact { hc' with
      deliverable := htype ▸ hdels
      phase := fun q _ => keyPhase_of_not_working g c' q hleave }
  rcases hcases with hc | ⟨n, hc | hc⟩
  · rw [hc]
    exact hloop _ { hstart with } rfl
  · have hadv := hstart.setRes i (fun _ => resOk_advance n) fun _ => rfl
    rw [hc]
    exact hloop _ { hadv with } rfl
  · have hadv := hstart.setRes i (fun _ => resOk_advance n) fun _ => rfl
    rw [hc]
    -- the last response forgets the opcode and the resource
    refine hloop _ { hadv with mid := ?_, reading := ?_ } rfl
    · exact fun hmid => absurd hmid not_midWrite_none
    · intro j hj
      cases hj

theorem readReply_init (h : KeyLoop g .readReply (some p) c) :
    KeyInv (g.upd ⟨.readReply, some p, c⟩)
      (if c.qp.resp.res.isNone then initReadRes c p else c) := by
  have hupd : g.upd ⟨.readReply, some p, c⟩ =
      if c.qp.resp.res.isNone then { g with reader := some p } else g := rfl
  rw [hupd]
  split
  · next hnone =>
    obtain ⟨hchecked, hread⟩ := h.phase p rfl (Option.isNone_iff_eq_none.1 hnone)
    exact initReadRes_key h.toKeyInv hchecked hread
  · exact h.toKeyInv

theorem readReply_key (h : KeyLoop g .readReply (some p) c) :
    KeyLoop (g.upd ⟨.readReply, some p, c⟩) (readReply c p).1 (some p) (readReply c p).2 := by
  have hinit := readReply_init h
  obtain ⟨head, hc⟩ := initReadRes_frame c p
  have hdel : Deliverable (if c.qp.resp.res.isNone then initReadRes c p else c).qp.type p := by
    rw [hc]
    split <;> exact h.deliverable p rfl
  have hstay : KeyLoop (g.upd ⟨.readReply, some p, c⟩) .done (some p)
      (if c.qp.resp.res.isNone then initReadRes c p else c) :=
    { hinit with
      deliverable := by rintro q hq; cases hq; exact hdel
      phase := fun _ _ => trivial }
  unfold readReply
  dsimp only
  split
  · exact hstay
  · split
    · exact hstay
    · exact readReplyRes_key hinit hdel _ _

theorem keepAtomicAck_key (h : KeyInv g c) (ack : Pkt) : KeyInv g (keepAtomicAck c ack) :=
  { h.setRes c.qp.resp.resHead (f := RespRes.keepAtomic ack c.qp.resp.psn)
      (fun _ hr => { hr with granted := fun _ hm => nomatch hm }) fun _ => rfl with }

theorem acknowledge_key (h : KeyInv g c) : KeyInv g (acknowledge c p) := by
  rcases acknowledge_frame c p with ⟨skb, es, -, hc⟩ | ⟨skb, es, ack, -, hc⟩
  · rw [hc]
    exact { h with }
  · rw [hc]
    exact { keepAtomicAck_key h ack with }

theorem duplicateRead_key (h : KeyLoop g .duplicateRequest (some p) c) (hread : p.mask.read) :
    KeyLoop (if (duplicateRead c p).1 = .readReply then { g with reader := some p } else g)
      (duplicateRead c p).1 (some p) (duplicateRead c p).2 := by
  have hdel := h.deliverable p rfl
  rcases duplicateRead_cases c p with hdrop | ⟨i, res, -, hres, hok, hreplay⟩
  · rw [hdrop, if_neg (by simp)]
    exact h.leave rfl
  · have hkey : p.key = res.rkey := by
      rw [key_of_read hread]
      simp only [replayOk, Bool.and_eq_true, decide_eq_true_eq] at hok
      exact hok.2
    have hinv : KeyInv g (setRes c i (replayRes p)) := h.toKeyInv.setRes i
      (fun _ hr => { hr with va_lt := hdel.va_lt, resid_lt := hdel.len_lt }) fun _ => rfl
    rw [hreplay, if_pos rfl]
    refine { hinv with deliverable := h.deliverable, reading := ?_, phase := ?_ }
    · intro j hj
      cases hj
      refine ⟨p, rfl, hread, fun r hr => ?_⟩
      obtain ⟨b, hb, rfl⟩ := getElem?_modify_some hr
      obtain rfl : res = b := Option.some_inj.1 (hres.symm.trans hb)
      rw [if_pos rfl]
      exact hkey.symm
    · intro q _ hnone
      cases hnone

theorem duplicateRequest_key (h : KeyLoop g .duplicateRequest (some p) c) :
    KeyLoop (g.upd ⟨.duplicateRequest, some p, c⟩) (duplicateRequest c p).1 (some p)
      (duplicateRequest c p).2 := by
  have hupd : g.upd ⟨.duplicateRequest, some p, c⟩ =
      if (duplicateRequest c p).1 = .readReply then { g with reader := some p } else g := rfl
  rw [hupd]
  by_cases hread : p.mask.read
  · rw [duplicateRequest_of_read c hread]
    exact duplicateRead_key h hread
  · obtain ⟨hstate, hcases⟩ := duplicateRequest_frame c p (by simpa using hread)
    rw [hstate, if_neg (by simp)]
    rcases hcases with ⟨skb, es, -, hc⟩ | ⟨skb, es, i, ack, -, hc⟩
    · rw [hc]
      exact { h with phase := fun _ _ => trivial }
    · rw [hc]
      exact { h.toKeyInv.setRes i (f := fun res => { res with ptr := .skb ack })
          (fun _ hr => { hr with granted := fun _ hm => nomatch hm }) fun _ => rfl with
        deliverable := h.deliverable
        phase := fun _ _ => trivial }

theorem getReq_key (h : KeyLoop g .getReq pkt c) :
    KeyLoop g (getReq c pkt).1 (getReq c pkt).2.1 (getReq c pkt).2.2 := by
  have hnone : ∀ p ∈ pkt, False := h.phase
  unfold getReq
  split
  · split
    · exact { h with phase := fun p hp => (hnone p hp).elim }
    -- in the error state a request is thrown away, and no packet is taken
    · next q qs hqs =>
      exact { h with
        queued := fun r hr => h.queued r (hqs ▸ List.mem_cons_of_mem q hr)
        deliverable := fun p hp => (hnone p hp).elim
        phase := fun p hp => (hnone p hp).elim }
  · split
    · exact h.leave rfl
    · next q qs hqs =>
      refine { h with deliverable := ?_, phase := ?_ }
      · rintro r hr
        cases hr
        exact h.queued q (hqs ▸ List.mem_cons_self)
      · rintro r hr
        dsimp only
        split
        -- with a resource under way `read_reply` goes on with it
        · next hres =>
          intro hres'
          rw [hres'] at hres
          cases hres
        · trivial

theorem keyQuiet : QuietRule (KeyLoop g) where
  settle _ hs hq h := by
    rw [hq]
    exact { h with
      phase := fun p _ => keyPhase_of_not_working g _ p (RespState.judged_not_working hs) }
  opValid h := { h with phase := fun p hp _ => h.phase p hp }
  resource hq herr _ h := by
    rw [hq]
    exact { h with phase := fun p hp => { h.phase p hp herr with } }
  flush hq herr h := by
    rw [hq]
    exact { h with phase := fun _ _ hno => absurd herr hno }

theorem doClassD1eError_key (h : KeyLoop g .errMissingOpcodeLastD1e pkt c) :
    KeyLoop g (doClassD1eError c).1 pkt (doClassD1eError c).2 := by
  unfold doClassD1eError
  split
  · dsimp only
    split <;> exact { h with phase := fun _ _ => trivial }
  · dsimp only
    split
    · obtain ⟨rq, srqWqe, hc⟩ := setRecvWqe_frame c fun w =>
        { w with dma := { w.dma with resid := w.dma.length, curSge := 0, sgeOffset := 0 } }
      rw [hc]
      exact { h with
        mid := fun hmid => absurd hmid not_midWrite_none
        phase := fun _ _ => trivial }
    · exact { h with phase := fun _ _ => trivial }

theorem rxeQpError_key (h : KeyInv g c) : KeyInv g (rxeQpError c) := by
  obtain ⟨req, sq, respPkts, cq, es, -, hc⟩ := rxeQpError_frame c
  rw [hc]
  exact { h with }

theorem mem_of_cleanup (hp : p ∈ (cleanup c pkt).qp.reqPkts) : p ∈ c.qp.reqPkts := by
  unfold cleanup at hp
  dsimp only at hp
  split at hp
  · exact List.mem_of_mem_tail hp
  · exact hp

theorem keyRule : PassRule Requests.upd KeyLoop KeyLoop KeyInv where
  getReq _ _ _ h := getReq_key h
  chkPsn g p c h := by
    obtain ⟨nak, drop, hc⟩ := respCheckPsn_frame c p
    rw [hc]
    exact { h with phase := fun q _ => keyPhase_of_not_working g _ q (respCheckPsn_state c p) }
  chkOpSeq _ _ _ h := checkOpSeq_key h
  chkOpValid _ _ _ h := keyQuiet.chkOpValid h
  chkResource _ _ _ h := keyQuiet.chkResource h
  chkLength _ _ _ h := { h with }
  chkRkey _ _ _ h := checkRkey_key h
  execute _ _ _ h := execute_key h
  complete _ _ _ h := keyQuiet.complete h
  readReply _ _ _ h := readReply_key h
  acknowledge g p c h := by
    refine { acknowledge_key h.toKeyInv with deliverable := ?_, phase := fun _ _ => trivial }
    rcases acknowledge_frame c p with ⟨skb, es, -, hc⟩ | ⟨skb, es, ack, -, hc⟩ <;> rw [hc] <;>
      exact h.deliverable
  cleanup g pkt c h := by
    exact { h with
      queued := fun p hp => h.queued p (mem_of_cleanup hp)
      phase := fun _ _ => trivial }
  duplicateRequest _ _ _ h := duplicateRequest_key h
  errPsn _ _ _ h := keyQuiet.errPsn h
  errAc g state pkt c syn status hac h := by
    have hupd : g.upd ⟨state, pkt, c⟩ = g := by
      cases state <;> first | rfl | cases hac
    rw [hupd]
    exact keyQuiet.errAc hac h
  errD1e _ _ _ h := doClassD1eError_key h
  errRnr _ _ _ h := keyQuiet.errRnr h
  errRkey _ _ _ h := keyQuiet.errRkey h
  errLength _ _ _ h := keyQuiet.errLength h
  toError g state pkt c hstate h := by
    have hupd : g.upd ⟨state, pkt, c⟩ = g := by
      rcases hstate with rfl | ⟨-, rfl | rfl⟩ <;> rfl
    rw [hupd]
    exact h.leave rfl
  leave g state pkt c hstate h := by
    have hupd : g.upd ⟨state, pkt, c⟩ = g := by
      rcases hstate with ⟨-, rfl | rfl⟩ | ⟨-, rfl⟩
      · rfl
      · rfl
      · cases state <;> rfl
    rw [hupd]
    exact h.toKeyInv
  error _ _ c h := rxeQpError_key (c := { c with qp.resp.gotoError := false }) { h with }
  reset _ _ _ h := { h with queued := fun _ hp => nomatch hp }

end Step

/-! ### Runs -/

/-- The responder holds a pointer to the region at an index. -/
def Ctx.refers (c : Ctx) (m : ℕ) : Prop :=
  c.qp.resp.mr = some m ∨ ∃ res ∈ c.qp.resp.resources, res.ptr = .mr m

/-- The context after the next pass. -/
def RespSys.passed : RespSys → Ctx
  | .idle c => c
  | .busy s => (RespSys.ofPass (respStep s)).ctx

/-- The regions `S` are still there with their rights, deregistered or not. -/
def KeepsRights (dev dev' : Dev) (S : ℕ → Prop) : Prop :=
  ∀ m, S m → ∀ mem, dev.mem m = some mem → ∃ mem', dev'.mem m = some mem' ∧
    mem'.pd = mem.pd ∧ mem'.access = mem.access ∧ mem'.rkey = mem.rkey

/-- What may happen: packets with any fields arrive, pointers are used as what they are, and
regions come and go, but one that the responder refers to keeps its rights. -/
def KeyOk (k : RespSys × Requests) : RespAct → Prop
  | .recv pkt => Deliverable k.1.ctx.qp.type pkt
  | .pass => k.1.passed.tame
  | .env dev _ _ => KeepsRights k.1.ctx.dev dev k.1.ctx.refers
  | _ => True

/-- The responder of a QP that has been created and set up, and has received nothing. -/
structure FreshResp (c : Ctx) : Prop where
  type : c.qp.type = .rc ∨ c.qp.type = .uc
  noPkts : c.qp.reqPkts = []
  resp : ∃ state psn n, c.qp.resp = { state, psn, resources := List.replicate n {} }

theorem FreshResp.keyInv (h : FreshResp c) : KeyInv {} c := by
  obtain ⟨state, psn, n, hresp⟩ := h.resp
  refine ⟨h.type, ?_, ?_, ?_, ?_, ?_, ?_, ?_⟩
  · simp [h.noPkts]
  · rw [hresp]
    intro res hres
    obtain rfl := List.eq_of_mem_replicate hres
    exact ⟨fun m hm => (nomatch hm), by decide, by decide⟩
  · intro t ht
    cases ht
  · rw [hresp]
    exact fun hmid => absurd hmid not_midWrite_none
  · rw [hresp]
    intro i hi
    cases hi
  · rw [hresp]
    exact Nat.two_pow_pos 64
  · rw [hresp]
    exact Nat.two_pow_pos 32

section Change

variable {g : Requests} {c c' : Ctx} {p : Pkt} {state : RespState} {pkt : Option Pkt}

theorem keyPhase_change (h : keyPhase g c p state) (htype : c'.qp.type = c.qp.type)
    (hmem : ∀ key m, c.qp.resp.mr = some m →
      Granted c.dev.mem c.qp.pd p.access key m → Granted c'.dev.mem c'.qp.pd p.access key m)
    (herr : c.qp.resp.state = .error → c'.qp.resp.state = .error)
    (hresp : c'.qp.resp = { c.qp.resp with state := c'.qp.resp.state }) :
    keyPhase g c' p state := by
  have hseq : InSeq g c p → InSeq g c' p := by
    rintro ⟨hfresh, hcont⟩
    refine ⟨?_, hcont⟩
    rw [htype, hresp]
    exact hfresh
  -- the region found by `check_rkey` keeps its rights until it is used
  have hchecked : Checked g c p → Checked g c' p := by
    intro h
    refine { hseq h.toInSeq with own := h.own, mr := ?_, len := ?_ }
    · intro hremote
      obtain ⟨m, hm, hgranted⟩ := h.mr hremote
      rw [hresp]
      exact ⟨m, hm, hmem _ m hm hgranted⟩
    · rw [hresp]
      exact h.len
  cases state with
  | chkResource => exact fun hno => hseq (h fun he => hno (herr he))
  | chkOpValid | chkLength | chkRkey => exact hseq h
  | execute => exact hchecked h
  | readReply =>
    intro hnone
    rw [hresp] at hnone
    obtain ⟨hc, hread⟩ := h hnone
    exact ⟨hchecked hc, hread⟩
  | _ => exact h

theorem Granted.env {access : Access} (h : Granted c.dev.mem c.qp.pd access key m)
    (hkeeps : KeepsRights c.dev dev c.refers) (hm : c.refers m) :
    Granted dev.mem c.qp.pd access key m := by
  obtain ⟨mem, hmem, hpd, haccess, hkey⟩ := h
  obtain ⟨mem', hmem', hpd', haccess', hkey'⟩ := hkeeps m hm mem hmem
  exact ⟨mem', hmem', hpd'.trans hpd, haccess' ▸ haccess, hkey'.trans hkey⟩

theorem KeyInv.env (h : KeyInv g c) (skb cq : List Bool)
    (hkeeps : KeepsRights c.dev dev c.refers) : KeyInv g { c with dev, skb, cq } :=
  { h with
    resource := fun res hres => { h.resource res hres with
      granted := fun m hm => ((h.resource res hres).granted m hm).env hkeeps
        (Or.inr ⟨res, hres, hm⟩) } }

theorem KeepsRights.refl (dev : Dev) (S : ℕ → Prop) : KeepsRights dev dev S :=
  fun _ _ mem hmem => ⟨mem, hmem, rfl, rfl, rfl⟩

theorem change_key {a : RespAct} {f : Ctx → Ctx} (hf : a.change = some f)
    (hctx : k.1.ctx = c) (hok : KeyOk k a) (h : KeyInv g c) :
    KeyInv g (f c) ∧ KeepsRights c.dev (f c).dev c.refers := by
  cases a with
  | call | pass => cases hf
  | recv q =>
    cases hf
    refine ⟨{ h with queued := ?_ }, .refl _ _⟩
    intro r hr
    rcases List.mem_append.1 hr with hr | hr
    · exact h.queued r hr
    · rw [List.mem_singleton.1 hr]
      exact hctx ▸ hok
  | postRecv wrs =>
    cases hf
    dsimp only
    unfold rxePostRecv
    split
    · exact ⟨h, .refl _ _⟩
    · exact ⟨{ h with }, .refl _ _⟩
  | error =>
    cases hf
    refine ⟨rxeQpError_key h, ?_⟩
    obtain ⟨req, sq, respPkts, cq, es, -, hc⟩ := rxeQpError_frame c
    rw [hc]
    exact .refl _ _
  | env dev skb cq =>
    cases hf
    have hkeeps : KeepsRights c.dev dev c.refers := hctx ▸ hok
    exact ⟨h.env skb cq hkeeps, hkeeps⟩
  | shareSrq q =>
    cases hf
    exact ⟨{ h with }, .refl _ _⟩

theorem change_keyLoop {a : RespAct} {f : Ctx → Ctx}
    (hf : a.change = some f) (hctx : k.1.ctx = c) (hok : KeyOk k a) (h : KeyLoop g state pkt c) :
    KeyLoop g state pkt (f c) := by
  obtain ⟨hinv, hmem⟩ := change_key hf hctx hok h.toKeyInv
  obtain ⟨htype, -, hpd, herr, hresp⟩ := RespAct.change_resp hf c
  refine { hinv with deliverable := htype ▸ h.deliverable, phase := fun p hp => ?_ }
  refine keyPhase_change (h.phase p hp) htype (fun key m hm hgranted => ?_) herr hresp
  rw [hpd]
  exact hgranted.env hmem (Or.inl hm)

end Change

open Trace in
theorem reach_key {c₀ : Ctx} (hfresh : FreshResp c₀)
    (hreach : Reach (ghostPass Requests.upd fun g _ _ => g) KeyOk (.idle c₀, {}) k) :
    k.1.Holds (KeyLoop k.2) (KeyInv k.2) := by
  refine PassRule.reach keyRule (fun _ _ _ h => h) ?_ ?_ ?_ ?_ hreach
  · intro g c h
    unfold respEnter
    dsimp only
    split
    · exact { h with }
    · have hinv : KeyInv g { c with qp.resp.aethSyndrome := aethAckUnlimited } := { h with }
      exact { hinv with
        deliverable := fun p hp => (nomatch hp)
        phase := fun p hp => (nomatch hp) }
  · intro g s a f hf hok h
    exact change_keyLoop hf rfl hok h
  · intro g c a f hf hok h
    exact (change_key hf rfl hok h).1
  · exact hfresh.keyInv

/-! ### What an access is -/

theorem checkedAccess_some {a b : RemoteAccess} (h : checkedAccess dev a = some b) :
    b = a ∧ rangeChecked dev a.region a.va a.len := by
  obtain ⟨hc, ⟨⟩⟩ := Option.ite_none_right_eq_some.1 h
  exact ⟨rfl, hc⟩

theorem write_of_continues (hremote : p.remote) (hnamed : p.named = false) :
    p.mask.write := by
  unfold Pkt.remote Pkt.mask at hremote
  unfold Pkt.named Pkt.mask at hnamed
  unfold Pkt.mask
  generalize p.opcode = o at hremote hnamed
  cases o <;> simp_all [rxeOpcodeMask]

theorem write_of_startsWrite (h : p.startsWrite) : p.mask.write := by
  rcases h with h | h <;> simp [Pkt.mask, h, rxeOpcodeMask]

/-- Regions whose own range does not wrap. -/
def NoWrap (dev : Dev) : Prop :=
  ∀ m mem, dev.mem m = some mem → mem.type ≠ .dma → mem.iova + mem.length ≤ 2 ^ 64

section Iff

variable {g : Requests} {c : Ctx} {p : Pkt} {a : RemoteAccess}

theorem Checked.asking (h : Checked g c p) (hinv : KeyInv g c) (hremote : p.remote) :
    ∃ t ∈ g.target, t.access = p.access ∧ c.qp.resp.rkey = t.key := by
  by_cases hnamed : p.named
  · exact ⟨p, h.own hnamed, rfl, hinv.key p (h.own hnamed)⟩
  · obtain ⟨t, ht, hstart⟩ := h.continues hremote (by simpa using hnamed)
    refine ⟨t, ht, ?_, hinv.key t ht⟩
    rw [access_of_write (write_of_continues hremote (by simpa using hnamed)),
      access_of_write (write_of_startsWrite hstart)]

theorem executeAccess_some (hinv : KeyLoop g .execute (some p) c)
    (h : executeAccess c p = some a) :
    p.remote ∧ p.access = a.kind ∧ a.region = c.qp.resp.mr ∧
      rangeChecked c.dev a.region a.va a.len ∧ a.va < 2 ^ 64 ∧ a.len < 2 ^ 64 := by
  have hchecked : Checked g c p := hinv.phase p rfl
  have hresid := hinv.resid_lt
  obtain ⟨hguard, h⟩ := Option.ite_none_left_eq_some.1 h
  split at h
  · next hwrite =>
    obtain ⟨rfl, hrange⟩ := checkedAccess_some h
    have hlen := hchecked.len hwrite
    exact ⟨by simp [Pkt.remote, hwrite], access_of_write hwrite, rfl, hrange, hinv.va_lt,
      show p.payload.length < 2 ^ 64 by omega⟩
  · split at h
    · cases h
    · split at h
      · next hguard =>
        have hatomic : p.mask.atomic := (Bool.and_eq_true_iff.1 hguard).1
        obtain ⟨rfl, hrange⟩ := checkedAccess_some h
        exact ⟨by simp [Pkt.remote, hatomic], access_of_atomic hatomic, rfl, hrange,
          (hinv.deliverable p rfl).atomicVa_lt, show 8 < 2 ^ 64 by decide⟩
      · cases h

theorem execute_access_iff (hinv : KeyLoop g .execute (some p) c)
    (h : executeAccess c p = some a) (hwrap : NoWrap c.dev) :
    ∃ r ∈ g.target, r.access = a.kind ∧ (a.Confined c.dev c.qp.pd r.key ↔ a.Plain c.dev) := by
  have hchecked : Checked g c p := hinv.phase p rfl
  obtain ⟨hremote, hkind, hregion, hrange, hva, hlen⟩ := executeAccess_some hinv h
  obtain ⟨t, ht, htkind, hkey⟩ := hchecked.asking hinv.toKeyInv hremote
  refine ⟨t, ht, htkind.trans hkind, confined_iff hrange ?_ hva hlen hwrap⟩
  intro m hm
  obtain ⟨m', hm', hgranted⟩ := hchecked.mr hremote
  obtain rfl : m' = m := Option.some_inj.1 (hm'.symm.trans (hregion ▸ hm))
  rw [hkind, hkey] at hgranted
  exact hgranted

theorem readReply_access_iff (hinv : KeyLoop g .readReply (some p) c)
    (h : readReplyAccess c p = some a) (hwrap : NoWrap c.dev) :
    ∃ r ∈ g.asking ⟨.readReply, some p, c⟩, r.access = a.kind ∧
      (a.Confined c.dev c.qp.pd r.key ↔ a.Plain c.dev) := by
  have hinit := readReply_init hinv
  have hreader : (g.upd ⟨.readReply, some p, c⟩).reader = g.asking ⟨.readReply, some p, c⟩ := by
    unfold Requests.upd Requests.asking
    dsimp only
    split <;> rfl
  obtain ⟨head, hc⟩ := initReadRes_frame c p
  have hdev : (if c.qp.resp.res.isNone then initReadRes c p else c).dev = c.dev := by
    rw [hc]
    split <;> rfl
  have hpd : (if c.qp.resp.res.isNone then initReadRes c p else c).qp.pd = c.qp.pd := by
    rw [hc]
    split <;> rfl
  unfold readReplyAccess at h
  dsimp only at h
  generalize (if c.qp.resp.res.isNone then initReadRes c p else c) = c' at hinit hdev hpd h
  split at h
  · cases h
  · next res hres =>
    obtain ⟨i, hi, hget⟩ := Option.bind_eq_some_iff.1 hres
    -- the resource in use has the key of the read it was taken for
    obtain ⟨r, hr, hread, hkeys⟩ := hinit.reading i hi
    have hok := hinit.resource res (List.mem_of_getElem? hget)
    rw [hdev, hpd] at hok
    split at h
    · obtain ⟨rfl, hrange⟩ := checkedAccess_some h
      rw [hdev] at hrange
      refine ⟨r, hreader ▸ hr, access_of_read hread, confined_iff hrange ?_ hok.va_lt ?_ hwrap⟩
      · intro m hm
        rw [← hkeys res hget]
        refine hok.granted m ?_
        exact region_eq_some hm
      · have hresid := hok.resid_lt
        have hs32 := s32_le res.resid
        dsimp only
        omega
    · cases h

end Iff

open Trace in
/-- In every run, an access is confined to a region that grants it under the key of the
request it is made for, exactly when the pointer is one to a region that has not been
deregistered and is not a DMA region, and the range does not wrap. -/
theorem remote_access_iff (c₀ : Ctx) (k : RespSys × Requests) (s : RespCfg) (a : RemoteAccess)
    (hfresh : FreshResp c₀)
    (hreach : Reach (ghostPass Requests.upd fun g _ _ => g) KeyOk (.idle c₀, {}) k)
    (hbusy : k.1 = .busy s) (haccess : remoteAccess s = some a) (hwrap : NoWrap s.c.dev) :
    ∃ r ∈ k.2.asking s, r.access = a.kind ∧
      (a.Confined s.c.dev s.c.qp.pd r.key ↔ a.Plain s.c.dev) := by
  have hinv := reach_key hfresh hreach
  rw [hbusy] at hinv
  obtain ⟨state, pkt, c⟩ := s
  unfold remoteAccess at haccess
  split at haccess
  · next p hstate hpkt =>
    dsimp only at hstate hpkt
    subst hstate hpkt
    exact execute_access_iff hinv haccess hwrap
  · next p hstate hpkt =>
    dsimp only at hstate hpkt
    subst hstate hpkt
    exact readReply_access_iff hinv haccess hwrap
  · cases haccess

/-- A region of one page that ends 8 bytes below the top of the address space; only its
first 8 bytes belong to it. -/
def topRegion : Mem :=
  { pd := 1, lkey := 0x100, rkey := 0x100, state := .valid, type := .mr, iova := 2 ^ 64 - 16
    length := 8, offset := 0, access := [.remoteWrite], pageShift := 12, pageMask := 4095
    mapShift := 8, mapMask := 255, map := [[⟨0x10000, 4096⟩]] }

/-- An RC responder that allows remote writes. -/
def topQp : Ctx :=
  { qp :=
      { type := .rc, pd := 1, attr.qpAccessFlags := [.remoteWrite], sq := ⟨[], []⟩, rq := ⟨[], []⟩
        resp.state := .ready }
    dev.mem := fun i => if i = 1 then some topRegion else none }

/-- An RDMA WRITE of 8 bytes. -/
def topWrite (va : ℕ) : Pkt :=
  { opcode := .rcRdmaWriteOnly, reth := ⟨va, 0x100, 8⟩, payload := List.replicate 8 1 }

theorem topQp_fresh : FreshResp topQp := ⟨Or.inl rfl, rfl, .ready, 0, 0, rfl⟩

theorem topWrite_deliverable {va : ℕ} (hva : va < 2 ^ 64) : Deliverable .rc (topWrite va) :=
  ⟨rfl, hva, show 8 < 2 ^ 32 by decide, show 0 < 2 ^ 64 by decide⟩

/-- Up to the state `execute` of a write into the region. -/
def topActs : List RespAct := [.recv (topWrite (2 ^ 64 - 16)), .call] ++ List.replicate 7 .pass

/-- What the acts need: the write is deliverable and the passes are tame. -/
def topCheck (k : RespSys × Requests) : RespAct → Bool
  | .recv p => p = topWrite (2 ^ 64 - 16) ∧ k.1.ctx.qp.type = .rc
  | .pass => k.1.passed.tame
  | .call => true
  | _ => false

theorem keyOk_of_topCheck (k : RespSys × Requests) (a : RespAct) (h : topCheck k a) :
    KeyOk k a := by
  cases a with
  | recv p =>
    obtain ⟨rfl, htype⟩ := of_decide_eq_true h
    show Deliverable k.1.ctx.qp.type _
    rw [htype]
    exact topWrite_deliverable (by decide)
  | pass => exact of_decide_eq_true (p := k.1.passed.tame) h
  | call => trivial
  | postRecv | error | env | shareSrq => cases h

open Trace in
theorem topReach : ∃ k s, Reach (ghostPass Requests.upd fun g _ _ => g) KeyOk (.idle topQp, {}) k ∧
    k.1 = .busy s ∧ s.c.dev = topQp.dev ∧ s.c.qp.pd = 1 ∧ s.pkt = some (topWrite (2 ^ 64 - 16)) ∧
    k.1.passed.tame ∧ k.1.passed.dev.byte 0x10000 = 1 ∧
    remoteAccess s = some ⟨.remoteWrite, some 1, 2 ^ 64 - 16, 8⟩ := by
  obtain ⟨k, hk⟩ : ∃ k, topActs.foldlM (fun k a => if topCheck k a then
      ghostPass Requests.upd (fun g _ _ => g) k a else none) (.idle topQp, {}) = some k := ⟨_, rfl⟩
  refine ⟨k, ?_⟩
  have hreach := Reach.start.foldlM_checked keyOk_of_topCheck topActs hk
  cases hk
  exact ⟨_, hreach, rfl, rfl, rfl, rfl, by decide, by decide, rfl⟩

theorem topQp_noWrap : NoWrap topQp.dev := by
  intro m mem hmem _
  dsimp only [topQp] at hmem
  split at hmem
  · cases hmem
    decide
  · cases hmem

open Trace in
/-- It is inside the region. -/
theorem remote_access_inside :
    ∃ k s, Reach (ghostPass Requests.upd fun g _ _ => g) KeyOk (.idle topQp, {}) k ∧
      k.1 = .busy s ∧ remoteAccess s = some ⟨.remoteWrite, some 1, 2 ^ 64 - 16, 8⟩ ∧
      ∃ r ∈ k.2.asking s,
        RemoteAccess.Confined ⟨.remoteWrite, some 1, 2 ^ 64 - 16, 8⟩ s.c.dev s.c.qp.pd r.key := by
  obtain ⟨k, s, hreach, hbusy, hdev, -, -, -, -, haccess⟩ := topReach
  obtain ⟨r, hr, -, hiff⟩ := remote_access_iff topQp k s _ topQp_fresh hreach hbusy haccess
    (hdev ▸ topQp_noWrap)
  refine ⟨k, s, hreach, hbusy, haccess, r, hr, hiff.2 (Or.inr ⟨1, topRegion, rfl, ?_⟩)⟩
  rw [hdev]
  exact ⟨rfl, by decide, by decide, Or.inl (by decide)⟩

/-- A write at `2 ^ 64 - 8`, behind the end of the region: address and length add up to 0
modulo `2 ^ 64`, the check lets it through, and the bytes behind the region in its page
are overwritten. -/
theorem remote_write_escapes :
    topRegion.iova + topRegion.length ≤ 2 ^ 64 - 8 ∧
      (rxeResponder 12 (rxeRespQueuePkt topQp (topWrite (2 ^ 64 - 8)))).map
        (fun r => (List.range 8).map fun i => r.2.dev.byte (0x10008 + i)) =
      some (List.replicate 8 1) :=
  ⟨by decide, by decide +kernel⟩

end Rxe
