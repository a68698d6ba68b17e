/-
The path MTU of a connected queue pair (`rxe_param.h`, `rxe_set_mtu` in `rxe.c`,
`rxe_param_set_mtu` in `rxe_net_sysfs.c`).

The modify verb does not look at the MTU of the port: a path MTU is compared with the constant
`max_mtu`.

* `rxeModifyQp_mtu` — what an accepted call leaves in `qp->mtu`;
* `path_mtu_sound_iff` — along a run `qp->mtu` is an MTU and its packets fit the network device
  exactly if every accepted path MTU is positive and leaves 76 bytes of the frame.
-/
import Rxe.QpState
import Rxe.Recv

namespace Rxe

/-! ### The MTU of the port -/

/-- `rxe_mtu_int_to_enum` -/
def rxeMtuIntToEnum (mtu : ℤ) : ℕ :=
  if mtu < 256 then 0
  else if mtu < 512 then 1
  else if mtu < 1024 then 2
  else if mtu < 2048 then 3
  else if mtu < 4096 then 4
  else if mtu < 8192 then 5
  else 6

/-- `eth_mtu_int_to_enum` -/
def ethMtuIntToEnum (mtu : ℤ) : ℕ := rxeMtuIntToEnum (mtu - 80)

/-- The MTU of the network device, the preferred one and those of the port. -/
structure MtuPort where
  ndevMtu : ℕ
  prefMtu : ℕ := 3
  activeMtu : ℕ := 1
  mtuCap : ℕ := 256

/-- `rxe_set_mtu`, called with the MTU of the network device: `true` where it returns 0. -/
def rxeSetMtu (port : MtuPort) : Bool × MtuPort :=
  let mtu := ethMtuIntToEnum (s32 port.ndevMtu)
  if mtu = 0 then (false, port)
  else
    let mtu := min mtu port.prefMtu
    (true, { port with activeMtu := mtu, mtuCap := rxeMtuEnumToInt mtu })

/-- The sizes a path MTU can have. -/
def mtuSizes : List ℕ := [256, 512, 1024, 2048, 4096]

/-- `rxe_param_set_mtu` -/
def rxeParamSetMtu (port : MtuPort) (mtu : ℕ) : MtuPort :=
  if mtu ∈ mtuSizes then (rxeSetMtu { port with prefMtu := rxeMtuIntToEnum mtu }).2 else port

/-! ### The packets of a QP -/

/-- A write, a send or an answer of `read_reply`. -/
def carriesData (code : ℕ) : Bool :=
  (rxeOpcodeMask (opcodeOf code)).writeOrSend || (13 ≤ code && code ≤ 16)

/-- `RXE_GRH_BYTES + paylen` of `init_req_packet` and `prepare_ack_packet`. -/
def pktBytes (code payload : ℕ) : ℕ :=
  40 + (rxeOpcodeLength code + payload + (4 - payload % 4) % 4 + 4)

/-- Every packet that a QP builds with an MTU fits in a frame. -/
def MtuFits (type : QpType) (mtu frame : ℕ) : Prop :=
  ∀ code payload, (type = .rc ∧ code < 24 ∨ type = .uc ∧ 32 ≤ code ∧ code < 44) →
    payload ≤ (if carriesData code then mtu else 0) → pktBytes code payload ≤ frame

/-- The longest packet is a write of one packet, with immediate data. -/
theorem mtuFits_iff {type : QpType} {mtu frame : ℕ} (htype : type = .rc ∨ type = .uc)
    (hmtu : mtu ∈ mtuSizes) : MtuFits type mtu frame ↔ mtu + 76 ≤ frame := by
  have hdvd : 256 ≤ mtu ∧ mtu % 4 = 0 := by
    revert mtu
    decide
  constructor
  · intro h
    have hlong : pktBytes 11 mtu ≤ frame ∨ pktBytes 43 mtu ≤ frame := by
      rcases htype with rfl | rfl
      · exact Or.inl (h 11 mtu (Or.inl ⟨rfl, by decide⟩) le_rfl)
      · exact Or.inr (h 43 mtu (Or.inr ⟨rfl, by decide, by decide⟩) le_rfl)
    have hlen : rxeOpcodeLength 11 = 32 ∧ rxeOpcodeLength 43 = 32 := by decide
    unfold pktBytes at hlong
    omega
  · intro h code payload hcode hpayload
    have hlen : ∀ code < 44, rxeOpcodeLength code ≤ if carriesData code then 32 else 40 := by
      decide
    specialize hlen code (by omega)
    unfold pktBytes
    split_ifs at hlen hpayload <;> omega

/-! ### Runs -/

/-- A QP, the port, and the MTU of the network device when a path MTU was last accepted. -/
structure MtuSys where
  c : Ctx
  port : MtuPort
  frame : Option ℕ := none

inductive MtuAct
  | modify (attr : IbQpAttr) (mask : List AttrMask)
  | setNdevMtu (mtu : ℕ)
  | setPrefMtu (mtu : ℕ)

/-- An accepted call of the modify verb, a new MTU of the network device, or one that the
administrator prefers. -/
def mtuStep (s : MtuSys) : MtuAct → Option MtuSys
  | .modify attr mask =>
    match rxeModifyQp {} s.c attr mask with
    | some (true, c) =>
      some { s with c, frame := if .pathMtu ∈ mask then some s.port.ndevMtu else s.frame }
    | _ => none
  | .setNdevMtu mtu => some { s with port := (rxeSetMtu { s.port with ndevMtu := mtu }).2 }
  | .setPrefMtu mtu => some { s with port := rxeParamSetMtu s.port mtu }

/-- The QP has an MTU, and its packets fit the network device. -/
def MtuSound (qp : Qp) (frame : Option ℕ) : Prop :=
  qp.mtu ∈ mtuSizes ∧ ∀ n ∈ frame, MtuFits qp.type qp.mtu n

/-- An accepted path MTU is one, and leaves room for the headers. -/
def MtuOk (s : MtuSys) : MtuAct → Prop
  | .modify attr mask => .pathMtu ∈ mask →
      1 ≤ attr.pathMtu ∧ rxeMtuEnumToInt attr.pathMtu + 76 ≤ s.port.ndevMtu
  | _ => True

/-- What an accepted call leaves in `qp->mtu`. -/
theorem rxeModifyQp_mtu {lim : DevLimits} {c c' : Ctx} {attr : IbQpAttr} {mask : List AttrMask}
    (h : rxeModifyQp lim c attr mask = some (true, c')) :
    c'.qp.type = c.qp.type ∧
      (.pathMtu ∉ mask → c'.qp.mtu = c.qp.mtu) ∧
      (.pathMtu ∈ mask → c'.qp.mtu = rxeMtuEnumToInt attr.pathMtu ∧
        attr.pathMtu ≤ lim.maxMtu c.qp.attr.portNum) := by
  unfold rxeModifyQp at h
  split at h
  · next hchk =>
    obtain ⟨skb, n, rd, res, head, hr | ⟨-, hset⟩⟩ := rxeQpFromAttr_cases h
    · cases hr
    · have hfixed := setQpState_fixed hset
      have hmtu : c'.qp.mtu = ((attr.masked mask).pathMtu.map rxeMtuEnumToInt).getD c.qp.mtu :=
        congrArg (fun f => f.2.2.1) hfixed
      refine ⟨congrArg Prod.fst hfixed, fun hno => ?_, fun hsel => ?_⟩
      · rw [hmtu, show (attr.masked mask).pathMtu = none from if_neg hno]
        rfl
      · rw [hmtu, show (attr.masked mask).pathMtu = some attr.pathMtu from if_pos hsel]
        unfold rxeQpChkAttr at hchk
        simp only [Bool.and_eq_true, Bool.or_eq_true, decide_eq_true_eq] at hchk
        exact ⟨rfl, hchk.1.1.2.resolve_left fun hno => hno hsel⟩
  · cases h

theorem mtuStep_cases {s s' : MtuSys} {a : MtuAct} (h : mtuStep s a = some s') :
    s'.c.qp.type = s.c.qp.type ∧
      (MtuOk s a ∧ s'.c.qp.mtu = s.c.qp.mtu ∧ s'.frame = s.frame ∨
        ∃ n ≤ 5, (MtuOk s a ↔ 1 ≤ n ∧ rxeMtuEnumToInt n + 76 ≤ s.port.ndevMtu) ∧
          s'.c.qp.mtu = rxeMtuEnumToInt n ∧ s'.frame = some s.port.ndevMtu) := by
  cases a with
  | setNdevMtu mtu | setPrefMtu mtu =>
    cases h
    exact ⟨rfl, Or.inl ⟨trivial, rfl, rfl⟩⟩
  | modify attr mask =>
    dsimp only [mtuStep] at h
    split at h
    · next c hmod =>
      cases h
      obtain ⟨hsame, hkeep, hnew⟩ := rxeModifyQp_mtu hmod
      by_cases hsel : .pathMtu ∈ mask
      · obtain ⟨hmtu, hmax⟩ := hnew hsel
        exact ⟨hsame, Or.inr ⟨attr.pathMtu, hmax, ⟨fun h => h hsel, fun h _ => h⟩, hmtu,
          if_pos hsel⟩⟩
      · exact ⟨hsame, Or.inl ⟨fun h => absurd h hsel, hkeep hsel, if_neg hsel⟩⟩
    · cases h

theorem mtuStep_sound {s s' : MtuSys} {a : MtuAct} (htype : s.c.qp.type = .rc ∨ s.c.qp.type = .uc)
    (hs : MtuSound s.c.qp s.frame) (h : mtuStep s a = some s') :
    MtuSound s'.c.qp s'.frame ↔ MtuOk s a := by
  have hsize : ∀ n ≤ 5, rxeMtuEnumToInt n ∈ mtuSizes ↔ 1 ≤ n := by decide
  unfold MtuSound at hs ⊢
  obtain ⟨hsame, ⟨hok, hmtu, hframe⟩ | ⟨n, hn, hok, hmtu, hframe⟩⟩ := mtuStep_cases h
  · rw [hsame, hmtu, hframe]
    exact iff_of_true hs hok
  · rw [hok, hsame, hmtu, hframe, hsize n hn]
    simp only [Option.mem_some_iff, forall_eq']
    exact and_congr_right fun h1 => mtuFits_iff htype ((hsize n hn).2 h1)

open Trace in
/-- The MTU of a connected QP is one, and its packets fit the network device as it was when the
path MTU was accepted, exactly if every accepted path MTU is at least 1 and leaves 76 bytes of
the frame for headers. -/
theorem path_mtu_sound_iff (run : Run mtuStep)
    (htype : (run.state 0).c.qp.type = .rc ∨ (run.state 0).c.qp.type = .uc)
    (hnew : (run.state 0).c.qp.mtu = 256 ∧ (run.state 0).frame = none) :
    (∀ t, MtuSound (run.state t).c.qp (run.state t).frame) ↔
      ∀ t a, run.act t = some a → MtuOk (run.state t) a := by
  have hrun := run.inv (I := fun s => s.c.qp.type = .rc ∨ s.c.qp.type = .uc) htype
    fun s a s' hs h => (mtuStep_cases h).1 ▸ hs
  refine run.always_iff (Q := fun s => MtuSound s.c.qp s.frame) ?_ fun t a hact hs =>
    mtuStep_sound (hrun t) hs (run.taken t a hact)
  unfold MtuSound
  rw [hnew.1, hnew.2]
  exact ⟨by decide, nofun⟩

/-- The calls that bring an RC QP to RTR, with a path MTU. -/
def toRtr (pathMtu : ℕ) : List MtuAct :=
  [.modify { qpState := .init } [.state, .pkeyIndex, .port, .accessFlags],
    .modify { qpState := .rtr, pathMtu }
      [.state, .av, .pathMtu, .destQpn, .rqPsn, .maxDestRdAtomic, .minRnrTimer]]

open Trace in
/-- A path MTU of 1024 on an Ethernet device. -/
theorem path_mtu_sound_ethernet :
    let run := Run.ofActs mtuStep ⟨createdQp, { ndevMtu := 1500 }, none⟩ (toRtr 3)
    (run.state 2).c.qp.mtu = 1024 ∧ (run.state 2).frame = some 1500 ∧
      MtuSound (run.state 2).c.qp (run.state 2).frame := by
  intro run
  have hok : ∀ t a, run.act t = some a → MtuOk (run.state t) a := by
    intro t a hact
    match t with
    | 0 =>
      cases hact
      exact nofun
    | 1 =>
      cases hact
      exact fun _ => by decide
    | t + 2 => cases hact
  exact ⟨rfl, rfl, (path_mtu_sound_iff run (Or.inl rfl) ⟨rfl, rfl⟩).2 hok 2⟩

/-- A path MTU of 0 is accepted and read as -1, one of 4096 on an Ethernet device too. -/
theorem path_mtu_unsound :
    ((toRtr 0).foldlM mtuStep ⟨createdQp, { ndevMtu := 1500 }, none⟩).map (·.c.qp.mtu) =
        some (2 ^ 32 - 1) ∧
      ((toRtr 5).foldlM mtuStep ⟨createdQp, { ndevMtu := 1500 }, none⟩).map
        (fun s => (s.c.qp.mtu, s.frame)) = some (4096, some 1500) :=
  ⟨rfl, rfl⟩

end Rxe
