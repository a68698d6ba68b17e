/-
Notification of a completion queue (`rxe_cq.c`, `rxe_verbs.c`).

`cq->notify` holds what the consumer has asked for with `rxe_req_notify_cq`; `rxe_cq_post`
compares it with the completion that it posts, schedules the completion handler if they
match, and increments it.  The increment is meant to disarm the CQ.  It does so from
`IB_CQ_NEXT_COMP`, but from `IB_CQ_SOLICITED` it leads to `IB_CQ_NEXT_COMP`.

A run is any sequence of arm, post and poll calls.  What the consumer may expect is said
about the log of the calls alone:

* `asked` — the strongest flag given since the CQ last signalled;
* `Disciplined` — no more signals than arm calls, no signal for an unsolicited completion
  unless the next completion was asked for, and a signal whenever it was;
* `Rearmed` — the condition on the calls: a CQ that signalled from `IB_CQ_SOLICITED` is armed
  again before the next completion;
* `CqInv`, `armed_next` — how `cq->notify` agrees with what was asked;
* `cq_notify_disciplined` — runs with this condition keep the discipline.
-/
import Mathlib.Data.List.Induction
import Rxe.Log
import Rxe.RingBuf
import Rxe.Trace

namespace Rxe

open Log

/-! ### The driver -/

/-- `enum ib_cq_notify_flags`: the two flags of which a call gives exactly one. -/
inductive NotifyFlag
  | solicited | nextComp
  deriving DecidableEq, Repr

def ibCqSolicited : UInt8 := 1
def ibCqNextComp : UInt8 := 2
def ibCqSolicitedMask : UInt8 := ibCqSolicited ||| ibCqNextComp

def NotifyFlag.bits : NotifyFlag → UInt8
  | .solicited => ibCqSolicited
  | .nextComp => ibCqNextComp

/-- `struct rxe_cq`: the queue and `notify`; a new CQ has been zeroed by the pool. -/
structure Cq (α : Type) where
  queue : RingBuf α
  notify : UInt8 := 0
  deriving DecidableEq, Repr

variable {α : Type}

/-- `rxe_req_notify_cq` -/
def rxeReqNotifyCq (cq : Cq α) (flags : UInt8) : Cq α :=
  if cq.notify ≠ ibCqNextComp then { cq with notify := flags &&& ibCqSolicitedMask } else cq

/-- The test with which `rxe_cq_post` decides whether to schedule `comp_task`. -/
def Cq.signals (cq : Cq α) (solicited : Bool) : Bool :=
  cq.notify = ibCqNextComp ∨ cq.notify = ibCqSolicited ∧ solicited

/-- `rxe_cq_post`: whether the completion handler is scheduled, or `none` for `-EBUSY`. -/
def rxeCqPost (cq : Cq α) (cqe : α) (solicited : Bool) : Option Bool × Cq α :=
  if cq.queue.full then (none, cq)
  else
    let cq := { cq with queue := cq.queue.push fun _ => cqe }
    if cq.signals solicited then (some true, { cq with notify := cq.notify + 1 })
    else (some false, cq)

/-- `rxe_poll_cq`: the completions taken from the CQ, at most `num_entries`. -/
def rxePollCq (cq : Cq α) : ℕ → List α × Cq α
  | 0 => ([], cq)
  | n + 1 =>
    match cq.queue.live.head? with
    | none => ([], cq)
    | some cqe =>
      let (wc, cq) := rxePollCq { cq with queue := cq.queue.pop } n
      (cqe :: wc, cq)

theorem rxePollCq_notify (cq : Cq α) (n : ℕ) : (rxePollCq cq n).2.notify = cq.notify := by
  induction n generalizing cq with
  | zero => rfl
  | succ n ih =>
    unfold rxePollCq
    cases cq.queue.live.head? with
    | none => rfl
    | some cqe => exact ih _

/-! ### Runs -/

/-- What the calls made on a CQ were, and what came of them. -/
inductive CqEvent
  | armed (flag : NotifyFlag)
  | posted (solicited signalled : Bool)
  /-- The CQ was full, the completion was not posted. -/
  | refused
  deriving DecidableEq, Repr

/-- A CQ and the log of the calls made on it. -/
structure CqSys (α : Type) where
  cq : Cq α
  log : List CqEvent := []

inductive CqAct (α : Type)
  | arm (flag : NotifyFlag)
  | post (cqe : α) (solicited : Bool)
  | poll (numEntries : ℕ)

def postEvent (solicited : Bool) : Option Bool → CqEvent
  | none => .refused
  | some signalled => .posted solicited signalled

def cqStep (s : CqSys α) : CqAct α → Option (CqSys α)
  | .arm flag => some ⟨rxeReqNotifyCq s.cq flag.bits, s.log ++ [.armed flag]⟩
  | .post cqe solicited =>
    let (result, cq) := rxeCqPost s.cq cqe solicited
    some ⟨cq, s.log ++ [postEvent solicited result]⟩
  | .poll numEntries => some { s with cq := (rxePollCq s.cq numEntries).2 }

/-! ### The discipline -/

/-- What one call does to the request for a notification. -/
def ask : Option NotifyFlag → CqEvent → Option NotifyFlag
  | some .nextComp, .armed _ => some .nextComp
  | _, .armed flag => some flag
  | _, .posted _ true => none
  | asked, _ => asked

/-- The strongest flag given since the CQ last signalled. -/
def asked (log : List CqEvent) : Option NotifyFlag := log.foldl ask none

def CqEvent.isArm : CqEvent → Bool
  | .armed _ => true
  | _ => false

def CqEvent.isSignal : CqEvent → Bool
  | .posted _ true => true
  | _ => false

/-- The number of calls of `rxe_req_notify_cq`. -/
def armCalls (log : List CqEvent) : ℕ := log.countP CqEvent.isArm

/-- The number of times the completion handler was scheduled. -/
def signalCalls (log : List CqEvent) : ℕ := log.countP CqEvent.isSignal

/-- The handler has not been scheduled more often than the CQ was armed. -/
def NoExcess (before : List CqEvent) (e : CqEvent) : Prop :=
  signalCalls (before ++ [e]) ≤ armCalls (before ++ [e])

/-- An unsolicited completion signals only if the next completion was asked for. -/
def Selective (before : List CqEvent) (e : CqEvent) : Prop :=
  e = .posted false true → asked before = some .nextComp

/-- The next completion posted after it was asked for signals. -/
def Prompt (before : List CqEvent) (e : CqEvent) : Prop :=
  asked before = some .nextComp → ∀ solicited, e ≠ .posted solicited false

structure Disciplined (log : List CqEvent) : Prop where
  noExcess : Along NoExcess log
  selective : Along Selective log
  prompt : Along Prompt log

section Calls

open Trace

/-- At time `t` a completion is posted, and the CQ has room for it. -/
def PostsAt (run : Run (cqStep (α := α))) (t : ℕ) (solicited : Bool) : Prop :=
  (∃ cqe, run.act t = some (.post cqe solicited)) ∧ (run.state t).cq.queue.full = false

/-- After a CQ armed for solicited completions only has signalled, the next completion comes
once the CQ has been armed again, and with `IB_CQ_NEXT_COMP` if it is an unsolicited one. -/
def Rearmed (run : Run (cqStep (α := α))) : Prop :=
  ∀ t u solicited, t < u → PostsAt run t true → (run.state t).cq.notify = ibCqSolicited →
    PostsAt run u solicited → (∀ v, t < v → v < u → ∀ b, ¬ PostsAt run v b) →
    ∃ v flag, t < v ∧ v < u ∧ run.act v = some (.arm flag) ∧
      (solicited = false → flag = .nextComp)

end Calls

section Logs

variable {log : List CqEvent} {e : CqEvent}

theorem asked_concat : asked (log ++ [e]) = ask (asked log) e := by
  simp [asked]

theorem armCalls_concat : armCalls (log ++ [e]) = armCalls log + if e.isArm then 1 else 0 := by
  simp [armCalls, List.countP_append, List.countP_singleton]

theorem signalCalls_concat :
    signalCalls (log ++ [e]) = signalCalls log + if e.isSignal then 1 else 0 := by
  simp [signalCalls, List.countP_append, List.countP_singleton]

theorem noExcess_le (h : Along NoExcess log) : signalCalls log ≤ armCalls log := by
  rcases List.eq_nil_or_concat log with rfl | ⟨before, e, rfl⟩
  · exact Nat.le_refl 0
  · rw [List.concat_eq_append] at h ⊢
    exact h before e [] rfl

theorem signalCalls_lt (h : Along NoExcess log) (hasked : asked log ≠ none) :
    signalCalls log < armCalls log := by
  induction log using List.reverseRecOn with
  | nil => exact absurd rfl hasked
  | append_singleton log e ih =>
    have hbefore := (along_concat.1 h).1
    have hle := noExcess_le hbefore
    rw [asked_concat] at hasked
    rw [armCalls_concat, signalCalls_concat]
    cases e with
    | armed flag =>
      simp only [CqEvent.isArm, CqEvent.isSignal, if_true, Bool.false_eq_true, if_false]
      omega
    | posted solicited signalled =>
      cases signalled with
      | true =>
        -- a signal leaves nothing asked for
        exact absurd (by unfold ask; split <;> simp_all) hasked
      | false => exact ih hbefore fun hnone => hasked (by rw [hnone]; rfl)
    | refused => exact ih hbefore fun hnone => hasked (by rw [hnone]; rfl)

end Logs

/-! ### What `notify` means -/

/-- `notify` is at least what was asked for, and `IB_CQ_SOLICITED` only if that was. -/
structure CqInv (s : CqSys α) : Prop where
  next : asked s.log = some .nextComp → s.cq.notify = ibCqNextComp
  only : s.cq.notify = ibCqSolicited → asked s.log = some .solicited

theorem cqInv_new (queue : RingBuf α) : CqInv { cq := { queue } } :=
  ⟨nofun, (by decide : ¬ (0 : UInt8) = ibCqSolicited).elim⟩

variable {s : CqSys α} {cq : Cq α} {solicited : Bool} {log : List CqEvent} {e : CqEvent}
  {s' : CqSys α} {a : CqAct α}

theorem asked_armed {flag : NotifyFlag} : asked (log ++ [.armed flag]) =
    if asked log = some .nextComp then some .nextComp else some flag := by
  rw [asked_concat]
  unfold ask
  split <;> simp_all

theorem signals_iff : cq.signals solicited = true ↔
    cq.notify = ibCqNextComp ∨ cq.notify = ibCqSolicited ∧ solicited = true := by
  simp [Cq.signals]

/-- What a post does: it is refused, or it signals and increments `notify`, or neither. -/
inductive PostCase (cq : Cq α) (solicited : Bool) : CqEvent → UInt8 → Prop
  | refused (hfull : cq.queue.full = true) : PostCase cq solicited .refused cq.notify
  | signal (hroom : cq.queue.full = false) (hsignal : cq.signals solicited = true) :
      PostCase cq solicited (.posted solicited true) (cq.notify + 1)
  | quiet (hroom : cq.queue.full = false) (hquiet : cq.signals solicited = false) :
      PostCase cq solicited (.posted solicited false) cq.notify

theorem rxeCqPost_cases (cq : Cq α) (cqe : α) (solicited : Bool) :
    PostCase cq solicited (postEvent solicited (rxeCqPost cq cqe solicited).1)
      (rxeCqPost cq cqe solicited).2.notify := by
  unfold rxeCqPost
  by_cases hfull : cq.queue.full
  · rw [if_pos hfull]
    exact .refused hfull
  · rw [if_neg hfull]
    have hroom : cq.queue.full = false := Bool.eq_false_iff.2 hfull
    have hsame : Cq.signals { cq with queue := cq.queue.push fun _ => cqe } solicited =
        cq.signals solicited := rfl
    cases hsignal : cq.signals solicited with
    | true =>
      rw [if_pos (hsame.trans hsignal)]
      exact .signal hroom hsignal
    | false =>
      rw [if_neg (Bool.eq_false_iff.1 (hsame.trans hsignal))]
      exact .quiet hroom hsignal

/-- What a call does to `notify` and to the log. -/
inductive CallCase (s s' : CqSys α) : CqAct α → Prop
  | arm (flag : NotifyFlag)
      (hnotify : s'.cq.notify = if s.cq.notify = ibCqNextComp then ibCqNextComp else flag.bits)
      (hlog : s'.log = s.log ++ [.armed flag]) : CallCase s s' (.arm flag)
  | post (cqe : α) (solicited : Bool) (e : CqEvent) (notify : UInt8)
      (hcase : PostCase s.cq solicited e notify) (hnotify : s'.cq.notify = notify)
      (hlog : s'.log = s.log ++ [e]) : CallCase s s' (.post cqe solicited)
  | poll (n : ℕ) (hnotify : s'.cq.notify = s.cq.notify) (hlog : s'.log = s.log) :
      CallCase s s' (.poll n)

theorem rxeReqNotifyCq_notify (cq : Cq α) (flag : NotifyFlag) :
    (rxeReqNotifyCq cq flag.bits).notify =
      if cq.notify = ibCqNextComp then ibCqNextComp else flag.bits := by
  have hmask : flag.bits &&& ibCqSolicitedMask = flag.bits := by cases flag <;> rfl
  unfold rxeReqNotifyCq
  by_cases hnext : cq.notify = ibCqNextComp
  · rw [if_neg (not_not.2 hnext), if_pos hnext, hnext]
  · rw [if_pos hnext, if_neg hnext]
    exact hmask

theorem cqStep_cases (hstep : cqStep s a = some s') : CallCase s s' a := by
  cases a with
  | arm flag =>
    cases hstep
    exact .arm flag (rxeReqNotifyCq_notify s.cq flag) rfl
  | post cqe solicited =>
    cases hstep
    exact .post cqe solicited _ _ (rxeCqPost_cases s.cq cqe solicited) rfl rfl
  | poll n =>
    cases hstep
    exact .poll n (rxePollCq_notify s.cq n) rfl

theorem asked_signal : asked (log ++ [.posted solicited true]) = none := by
  rw [asked_concat]
  unfold ask
  split <;> simp_all

theorem asked_quiet : asked (log ++ [.posted solicited false]) = asked log := by
  rw [asked_concat]
  unfold ask
  split <;> simp_all

theorem asked_refused : asked (log ++ [.refused]) = asked log := by
  rw [asked_concat]
  unfold ask
  split <;> simp_all

theorem CqInv.step (h : CqInv s) (hcase : CallCase s s' a) : CqInv s' := by
  cases hcase with
  | arm flag hnotify hlog =>
    by_cases hnext : s.cq.notify = ibCqNextComp
    · rw [if_pos hnext] at hnotify
      exact ⟨fun _ => hnotify, fun hsol => absurd (hnotify.symm.trans hsol) (by decide)⟩
    · -- the flag given is stored, and is all that is asked for
      have hasked : asked s'.log = some flag := by
        rw [hlog, asked_armed, if_neg fun hn => hnext (h.next hn)]
      rw [if_neg hnext] at hnotify
      constructor <;> rw [hnotify, hasked] <;> cases flag <;> decide
  | post cqe solicited e notify hcase hnotify hlog =>
    cases hcase with
    | refused =>
      constructor <;> rw [hlog, hnotify, asked_refused]
      exacts [h.next, h.only]
    | quiet =>
      constructor <;> rw [hlog, hnotify, asked_quiet]
      exacts [h.next, h.only]
    | signal hroom hsignal =>
      constructor <;> rw [hlog, hnotify, asked_signal]
      · exact nofun
      · -- neither increment leads to the value for solicited completions
        rcases signals_iff.1 hsignal with hn | ⟨hn, -⟩ <;> rw [hn] <;> decide
  | poll n hnotify hlog =>
    constructor <;> rw [hlog, hnotify]
    exacts [h.next, h.only]

/-! ### Which runs keep the discipline -/

theorem CqInv.prompt (h : CqInv s) {notify : UInt8} (hcase : PostCase s.cq solicited e notify) :
    Prompt s.log e := by
  intro hasked solicited' he
  cases hcase with
  | refused | signal => cases he
  | quiet hroom hquiet =>
    have hsignal : s.cq.signals solicited = true := signals_iff.2 (Or.inl (h.next hasked))
    exact absurd (hsignal.symm.trans hquiet) (by decide)

theorem prompt_step (h : CqInv s ∧ Along Prompt s.log) (hstep : cqStep s a = some s') :
    CqInv s' ∧ Along Prompt s'.log := by
  have hcase := cqStep_cases hstep
  refine ⟨h.1.step hcase, ?_⟩
  cases hcase with
  | arm flag hnotify hlog => exact hlog ▸ along_concat.2 ⟨h.2, fun _ _ => nofun⟩
  | post cqe solicited e notify hcase hnotify hlog =>
    exact hlog ▸ along_concat.2 ⟨h.2, h.1.prompt hcase⟩
  | poll n hnotify hlog => exact hlog ▸ h.2

section Runs

open Trace

variable {run : Run (cqStep (α := α))} {t₀ t : ℕ}

/-- The CQ signalled from `IB_CQ_SOLICITED` at time `t₀`, nothing was posted since then, and
what is asked for is at least what was given since then. -/
structure Spent (run : Run (cqStep (α := α))) (t₀ t : ℕ) : Prop where
  lt : t₀ < t
  posted : PostsAt run t₀ true
  armed : (run.state t₀).cq.notify = ibCqSolicited
  quiet : ∀ v, t₀ < v → v < t → ∀ b, ¬ PostsAt run v b
  given : ∀ v flag, t₀ < v → v < t → run.act v = some (.arm flag) →
    ∃ f, asked (run.state t).log = some f ∧ (flag = .nextComp → f = .nextComp)

theorem Spent.next (h : Spent run t₀ t) (hquiet : ∀ b, ¬ PostsAt run t b)
    (hmore : ∀ f, asked (run.state t).log = some f →
      ∃ f', asked (run.state (t + 1)).log = some f' ∧ (f = .nextComp → f' = .nextComp))
    (hgiven : ∀ flag, run.act t = some (.arm flag) →
      ∃ f, asked (run.state (t + 1)).log = some f ∧ (flag = .nextComp → f = .nextComp)) :
    Spent run t₀ (t + 1) where
  lt := Nat.lt_succ_of_lt h.lt
  posted := h.posted
  armed := h.armed
  quiet := by
    intro v hv hvt
    rcases Nat.lt_succ_iff_lt_or_eq.1 hvt with hlt | rfl
    · exact h.quiet v hv hlt
    · exact hquiet
  given := by
    intro v flag hv hvt hact
    rcases Nat.lt_succ_iff_lt_or_eq.1 hvt with hlt | rfl
    · obtain ⟨f, hf, hnext⟩ := h.given v flag hv hlt hact
      obtain ⟨f', hf', hkeep⟩ := hmore f hf
      exact ⟨f', hf', fun hflag => hkeep (hnext hflag)⟩
    · exact hgiven flag hact

theorem Spent.idle (h : Spent run t₀ t) (hquiet : ∀ b, ¬ PostsAt run t b)
    (harm : ∀ flag, run.act t ≠ some (.arm flag))
    (hlog : asked (run.state (t + 1)).log = asked (run.state t).log) :
    Spent run t₀ (t + 1) :=
  h.next hquiet (fun f hf => ⟨f, hlog.trans hf, id⟩) fun flag hact => absurd hact (harm flag)

theorem Spent.arm (h : Spent run t₀ t) {flag : NotifyFlag} (hact : run.act t = some (.arm flag))
    (hlog : (run.state (t + 1)).log = (run.state t).log ++ [.armed flag]) :
    Spent run t₀ (t + 1) := by
  have hquiet : ∀ b, ¬ PostsAt run t b := fun b ⟨⟨cqe, hpost⟩, _⟩ => nomatch hact.symm.trans hpost
  refine h.next hquiet (fun f hf => ?_) fun flag' hact' => ?_
  · rw [hlog, asked_armed, hf]
    cases f with
    | solicited => exact ⟨flag, rfl, nofun⟩
    | nextComp => exact ⟨.nextComp, rfl, fun _ => rfl⟩
  · cases hact.symm.trans hact'
    rw [hlog, asked_armed]
    split
    · exact ⟨.nextComp, rfl, fun _ => rfl⟩
    · exact ⟨flag, rfl, id⟩

/-- `IB_CQ_NEXT_COMP` was asked for, or it is what the increment has made of
`IB_CQ_SOLICITED`. -/
theorem armed_next {queue : RingBuf α} (hnew : run.state 0 = { cq := { queue } }) (t : ℕ)
    (hnotify : (run.state t).cq.notify = ibCqNextComp) :
    asked (run.state t).log = some .nextComp ∨ ∃ t₀, Spent run t₀ t := by
  induction t with
  | zero =>
    rw [hnew] at hnotify
    exact absurd hnotify (by decide : ¬ (0 : UInt8) = ibCqNextComp)
  | succ t ih =>
    -- a step that leaves `notify` and what is asked for alone
    have hidle : (∀ b, ¬ PostsAt run t b) → (∀ flag, run.act t ≠ some (.arm flag)) →
        (run.state (t + 1)).cq.notify = (run.state t).cq.notify →
        asked (run.state (t + 1)).log = asked (run.state t).log →
        asked (run.state (t + 1)).log = some .nextComp ∨ ∃ t₀, Spent run t₀ (t + 1) := by
      intro hquiet harm hstay hasked
      rw [hasked]
      exact (ih (hstay ▸ hnotify)).imp_right fun ⟨t₀, h⟩ => ⟨t₀, h.idle hquiet harm hasked⟩
    cases hact : run.act t with
    | none =>
      have hstay := run.stutter t hact
      exact hidle (fun b ⟨⟨_, hpost⟩, _⟩ => nomatch hact.symm.trans hpost)
        (fun flag harm => nomatch hact.symm.trans harm) (by rw [hstay]) (by rw [hstay])
    | some a =>
      cases cqStep_cases (run.taken t a hact) with
      | arm flag hstored hlog =>
        by_cases hbefore : (run.state t).cq.notify = ibCqNextComp
        · rcases ih hbefore with hasked | ⟨t₀, hspent⟩
          · exact Or.inl (by rw [hlog, asked_armed, if_pos hasked])
          · exact Or.inr ⟨t₀, hspent.arm hact hlog⟩
        · rw [hstored, if_neg hbefore] at hnotify
          cases flag with
          | solicited => exact absurd hnotify (by decide)
          | nextComp => exact Or.inl (by rw [hlog, asked_armed, ite_self])
      | post cqe solicited e notify hcase hnotify' hlog =>
        cases hcase with
        | refused hfull =>
          exact hidle (fun b hpost => absurd (hfull.symm.trans hpost.2) (by decide))
            (fun flag harm => nomatch hact.symm.trans harm) hnotify' (by rw [hlog, asked_refused])
        | quiet hroom hquiet =>
          have hsignal : (run.state t).cq.signals solicited = true :=
            signals_iff.2 (Or.inl (hnotify' ▸ hnotify))
          exact absurd (hsignal.symm.trans hquiet) (by decide)
        | signal hroom hsignal =>
          rw [hnotify'] at hnotify
          rcases signals_iff.1 hsignal with hnext | ⟨hsol, rfl⟩
          · rw [hnext] at hnotify
            exact absurd hnotify (by decide)
          · refine Or.inr ⟨t, Nat.lt_succ_self t, ⟨⟨cqe, hact⟩, hroom⟩, hsol, ?_, ?_⟩
            · intro v hv hvt
              omega
            · intro v flag hv hvt
              omega
      | poll n hstay hlog =>
        exact hidle (fun b ⟨⟨_, hpost⟩, _⟩ => nomatch hact.symm.trans hpost)
          (fun flag harm => nomatch hact.symm.trans harm) hstay (by rw [hlog])

variable {queue : RingBuf α}

/-- A post that signals was asked for, and as the next completion if it is unsolicited. -/
theorem signal_asked (hnew : run.state 0 = { cq := { queue } }) (hok : Rearmed run)
    (hinv : CqInv (run.state t)) (hpost : PostsAt run t solicited)
    (hsignal : (run.state t).cq.signals solicited = true) :
    asked (run.state t).log ≠ none ∧
      (solicited = false → asked (run.state t).log = some .nextComp) := by
  rcases signals_iff.1 hsignal with hnext | ⟨hsol, rfl⟩
  · rcases armed_next hnew t hnext with hasked | ⟨t₀, hspent⟩
    · exact ⟨by rw [hasked]; exact Option.some_ne_none _, fun _ => hasked⟩
    · -- the increment has armed the CQ, and so has a call since then
      obtain ⟨v, flag, hv, hvt, hact, hflag⟩ :=
        hok t₀ t solicited hspent.lt hspent.posted hspent.armed hpost hspent.quiet
      obtain ⟨f, hf, hkeep⟩ := hspent.given v flag hv hvt hact
      exact ⟨by rw [hf]; exact Option.some_ne_none _, fun h => by rw [hf, hkeep (hflag h)]⟩
  · exact ⟨by rw [hinv.only hsol]; exact Option.some_ne_none _, nofun⟩

theorem disciplined_step (hnew : run.state 0 = { cq := { queue } }) (hok : Rearmed run)
    (hinv : CqInv (run.state t))
    (h : Along NoExcess (run.state t).log ∧ Along Selective (run.state t).log)
    (hact : run.act t = some a) :
    Along NoExcess (run.state (t + 1)).log ∧ Along Selective (run.state (t + 1)).log := by
  have hle := noExcess_le h.1
  have hconcat : ∀ e, (run.state (t + 1)).log = (run.state t).log ++ [e] →
      NoExcess (run.state t).log e → Selective (run.state t).log e →
      Along NoExcess (run.state (t + 1)).log ∧ Along Selective (run.state (t + 1)).log := by
    intro e hlog hexcess hselective
    rw [hlog]
    exact ⟨along_concat.2 ⟨h.1, hexcess⟩, along_concat.2 ⟨h.2, hselective⟩⟩
  have hexcess : ∀ e, e.isSignal = false → NoExcess (run.state t).log e := by
    intro e he
    rw [NoExcess, armCalls_concat, signalCalls_concat, he]
    simp only [Bool.false_eq_true, if_false]
    omega
  cases cqStep_cases (run.taken t a hact) with
  | arm flag hnotify hlog => exact hconcat _ hlog (hexcess _ rfl) nofun
  | post cqe solicited e notify hcase hnotify hlog =>
    cases hcase with
    | refused hfull => exact hconcat _ hlog (hexcess _ rfl) nofun
    | quiet hroom hquiet => exact hconcat _ hlog (hexcess _ rfl) nofun
    | signal hroom hsignal =>
      obtain ⟨hasked, hnext⟩ := signal_asked hnew hok hinv ⟨⟨cqe, hact⟩, hroom⟩ hsignal
      refine hconcat _ hlog ?_ fun he => hnext (CqEvent.posted.inj he).1
      have hlt := signalCalls_lt h.1 hasked
      rw [NoExcess, armCalls_concat, signalCalls_concat]
      simp only [CqEvent.isArm, CqEvent.isSignal, if_true, Bool.false_eq_true, if_false]
      omega
  | poll n hnotify hlog => exact hlog ▸ h

/-- In every run of a new CQ the next completion signals after it was asked for; and the
signals are disciplined if a CQ that signalled from `IB_CQ_SOLICITED` is armed again before the
next completion. -/
theorem cq_notify_disciplined (queue : RingBuf α) (run : Run (cqStep (α := α)))
    (hnew : run.state 0 = { cq := { queue } }) :
    (∀ t, Along Prompt (run.state t).log) ∧
      (Rearmed run → ∀ t, Disciplined (run.state t).log) := by
  have hinv : ∀ t, CqInv (run.state t) ∧ Along Prompt (run.state t).log := by
    refine run.inv ?_ fun s a s' h hstep => prompt_step h hstep
    rw [hnew]
    exact ⟨cqInv_new queue, along_nil⟩
  refine ⟨fun t => (hinv t).2, fun hok t => ?_⟩
  have hdisc : Along NoExcess (run.state t).log ∧ Along Selective (run.state t).log := by
    induction t with
    | zero =>
      rw [hnew]
      exact ⟨along_nil, along_nil⟩
    | succ t ih =>
      cases hact : run.act t with
      | none =>
        rw [run.stutter t hact]
        exact ih
      | some a => exact disciplined_step hnew hok (hinv t).1 ih hact
  exact ⟨hdisc.1, hdisc.2, (hinv t).2⟩

/-- A CQ with room for three completions. -/
def threeCqes : RingBuf ℕ := ⟨[], [0, 0, 0, 0]⟩

/-- The CQ signals a solicited completion, is armed for the next one and signals that. -/
def rearmedRun : Run (cqStep (α := ℕ)) := Run.ofActs cqStep { cq := { queue := threeCqes } }
  [.arm .solicited, .post 7 true, .arm .nextComp, .post 8 false]

theorem cq_notify_disciplined_twice :
    (rearmedRun.state 4).log =
        [.armed .solicited, .posted true true, .armed .nextComp, .posted false true] ∧
      Disciplined (rearmedRun.state 4).log := by
  refine ⟨rfl, (cq_notify_disciplined threeCqes rearmedRun rfl).2 ?_ 4⟩
  intro t u solicited hlt hpost hnotify hposted hquiet
  -- the one signal from the solicited state is at time 1, the next completion at time 3
  obtain ⟨⟨cqe, hpost⟩, -⟩ := hpost
  obtain ⟨⟨cqe', hposted⟩, -⟩ := hposted
  match t, u with
  | 1, 3 => exact ⟨2, .nextComp, by decide, by decide, rfl, fun _ => rfl⟩
  | 0, _ | 2, _ | 3, _ | _ + 4, _ => cases hpost
  | 1, 2 | 1, _ + 4 => cases hposted
  | 1, 0 | 1, 1 => omega

/-- A CQ armed once, for solicited completions, signals a solicited completion and then an
unsolicited one. -/
theorem cq_notify_undisciplined : ∃ s : CqSys ℕ,
    [CqAct.arm .solicited, .post 7 true, .post 8 false].foldlM cqStep
        { cq := { queue := threeCqes } } = some s ∧
      armCalls s.log = 1 ∧ signalCalls s.log = 2 ∧ ¬ Disciplined s.log := by
  refine ⟨_, rfl, rfl, rfl, fun hd => ?_⟩
  exact absurd (hd.selective [.armed .solicited, .posted true true] _ [] rfl rfl) (by decide)

end Runs

end Rxe
