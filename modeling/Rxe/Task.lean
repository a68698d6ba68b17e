/-
The task runner (`rxe_task.c`).

`rxe_do_task` may be called by any number of callers at once.  A call is modelled by its
place in the code: it takes the lock to read the task state, and either returns or becomes
the runner, which calls `func` and takes the lock again to decide whether to go on.  Each
section under `state_lock` is one step, and so are the start and the return of `func`.

* `taskInv_run` — there is a runner exactly when the state is not START, and only one;
* `rxeDoTask_wakeup` — `func` is never run twice at a time, the task comes to rest in START,
  and every call is followed by a run of `func`.
-/
import Mathlib.Data.Nat.Find
import Mathlib.Logic.Function.Basic
import Rxe.Trace

namespace Rxe

/-- `task->state` -/
inductive TaskState
  | start | busy | armed
  deriving DecidableEq, Repr

/-- Where a call of `rxe_do_task` stands; `idle` is outside it. -/
inductive TaskPc
  | idle
  /-- before the first section under the lock -/
  | entry
  /-- at the top of the `do` loop, before `func` is called -/
  | call
  | func
  /-- `func` has returned, before the section under the lock -/
  | returned (ret : ℤ)
  /-- out of the loop, before `task->ret = ret` -/
  | leaving (ret : ℤ)
  deriving DecidableEq, Repr

/-- `struct rxe_task` and its callers. -/
structure TaskSys (ι : Type) where
  state : TaskState := .start
  ret : ℤ := 0
  pc : ι → TaskPc := fun _ => .idle

/-- The steps of a call. -/
inductive TaskAct
  | enter | lockEntry | invoke | funcReturn (ret : ℤ) | lockLoop | leave
  deriving DecidableEq, Repr

section Step

variable {ι : Type} [DecidableEq ι]

/-- The caller `i` goes on to `pc`. -/
def TaskSys.goto (s : TaskSys ι) (i : ι) (pc : TaskPc) : TaskSys ι :=
  { s with pc := Function.update s.pc i pc }

/-- One step of the caller `i` in `rxe_do_task`. -/
def taskStep (s : TaskSys ι) (a : ι × TaskAct) : Option (TaskSys ι) :=
  let i := a.1
  match a.2, s.pc i with
  | .enter, .idle => some (s.goto i .entry)
  | .lockEntry, .entry =>
    match s.state with
    | .start => some ({ s with state := .busy }.goto i .call)
    | .busy => some ({ s with state := .armed }.goto i .idle)
    | .armed => some (s.goto i .idle)
  | .invoke, .call => some (s.goto i .func)
  | .funcReturn ret, .func => some (s.goto i (.returned ret))
  | .lockLoop, .returned ret =>
    match s.state with
    | .busy =>
      if ret ≠ 0 then some ({ s with state := .start }.goto i (.leaving ret))
      else some (s.goto i .call)
    -- someone tried to run the task since the last call of func
    | .armed => some ({ s with state := .busy }.goto i .call)
    | .start => some (s.goto i (.leaving ret))
  | .leave, .leaving ret => some ({ s with ret }.goto i .idle)
  | _, _ => none

end Step

/-- The caller is the runner: it is inside the `do` loop. -/
def TaskPc.running : TaskPc → Bool
  | .call | .func | .returned _ => true
  | _ => false

section Inv

variable {ι : Type} {s s' : TaskSys ι} {i j : ι} {a : TaskAct}

/-- There is at most one runner, and there is none exactly when the state is START. -/
structure TaskInv (s : TaskSys ι) : Prop where
  unique : ∀ i j, (s.pc i).running → (s.pc j).running → i = j
  start : s.state = .start ↔ ∀ i, (s.pc i).running = false

theorem taskInv_init : TaskInv ({} : TaskSys ι) :=
  ⟨fun _ _ h => (by cases h), fun _ _ => rfl, fun _ => rfl⟩

/-- The runner `i` is bound to call `func`: it is about to, or it will find the task armed. -/
def Owes (i : ι) (s : TaskSys ι) : Prop :=
  s.pc i = .call ∨ s.state = .armed ∧ (s.pc i = .func ∨ ∃ ret, s.pc i = .returned ret)

theorem Owes.running (h : Owes i s) : (s.pc i).running := by
  rcases h with hpc | ⟨-, hpc | ⟨ret, hpc⟩⟩ <;> rw [hpc] <;> rfl

variable [DecidableEq ι]

@[simp] theorem goto_pc_self (s : TaskSys ι) (i : ι) (pc : TaskPc) : (s.goto i pc).pc i = pc := by
  simp [TaskSys.goto]

theorem goto_pc_of_ne (s : TaskSys ι) (pc : TaskPc) (h : j ≠ i) : (s.goto i pc).pc j = s.pc j := by
  simp [TaskSys.goto, h]

theorem taskStep_cases (h : taskStep s (i, a) = some s') :
    (∀ j, j ≠ i → s'.pc j = s.pc j) ∧
      ((a = .enter ∧ s.pc i = .idle ∧ s'.pc i = .entry ∧ s'.state = s.state) ∨
        (a = .lockEntry ∧ s.pc i = .entry ∧
          (s.state = .start ∧ s'.state = .busy ∧ s'.pc i = .call ∨
            s.state ≠ .start ∧ s'.state = .armed ∧ s'.pc i = .idle)) ∨
        (a = .invoke ∧ s.pc i = .call ∧ s'.pc i = .func ∧ s'.state = s.state) ∨
        (∃ ret, a = .funcReturn ret ∧ s.pc i = .func ∧ s'.pc i = .returned ret ∧
          s'.state = s.state) ∨
        (∃ ret, a = .lockLoop ∧ s.pc i = .returned ret ∧
          (s.state = .armed ∧ s'.state = .busy ∧ s'.pc i = .call ∨
            s.state = .busy ∧ s'.state = .busy ∧ s'.pc i = .call ∨
            s.state ≠ .armed ∧ s'.state = .start ∧ s'.pc i = .leaving ret)) ∨
        (∃ ret, a = .leave ∧ s.pc i = .leaving ret ∧ s'.pc i = .idle ∧ s'.state = s.state)) := by
  unfold taskStep at h
  dsimp only at h
  split at h
  · next hpc =>
    cases h
    exact ⟨fun j hj => goto_pc_of_ne s _ hj, Or.inl ⟨rfl, hpc, goto_pc_self s i _, rfl⟩⟩
  · next hpc =>
    split at h <;> cases h <;> refine ⟨fun j hj => goto_pc_of_ne _ _ hj, Or.inr (Or.inl ?_)⟩
    · next hst => exact ⟨rfl, hpc, Or.inl ⟨hst, rfl, goto_pc_self _ i _⟩⟩
    · next hst => exact ⟨rfl, hpc, Or.inr ⟨by simp [hst], rfl, goto_pc_self _ i _⟩⟩
    · next hst => exact ⟨rfl, hpc, Or.inr ⟨by simp [hst], hst, goto_pc_self _ i _⟩⟩
  · next hpc =>
    cases h
    exact ⟨fun j hj => goto_pc_of_ne s _ hj,
      Or.inr (Or.inr (Or.inl ⟨rfl, hpc, goto_pc_self s i _, rfl⟩))⟩
  · next ret hpc =>
    cases h
    exact ⟨fun j hj => goto_pc_of_ne s _ hj,
      Or.inr (Or.inr (Or.inr (Or.inl ⟨ret, rfl, hpc, goto_pc_self s i _, rfl⟩)))⟩
  · next ret hpc =>
    -- the three places where `do_task` decides to go on or to leave
    suffices hlock : (∀ j, j ≠ i → s'.pc j = s.pc j) ∧
        (s.state = .armed ∧ s'.state = .busy ∧ s'.pc i = .call ∨
          s.state = .busy ∧ s'.state = .busy ∧ s'.pc i = .call ∨
          s.state ≠ .armed ∧ s'.state = .start ∧ s'.pc i = .leaving ret) from
      ⟨hlock.1, Or.inr (Or.inr (Or.inr (Or.inr (Or.inl ⟨ret, rfl, hpc, hlock.2⟩))))⟩
    split at h
    · next hst =>
      split at h <;> cases h <;> refine ⟨fun j hj => goto_pc_of_ne _ _ hj, ?_⟩
      · exact Or.inr (Or.inr ⟨by simp [hst], rfl, goto_pc_self _ i _⟩)
      · exact Or.inr (Or.inl ⟨hst, hst, goto_pc_self _ i _⟩)
    · next hst =>
      cases h
      exact ⟨fun j hj => goto_pc_of_ne _ _ hj, Or.inl ⟨hst, rfl, goto_pc_self _ i _⟩⟩
    · next hst =>
      cases h
      exact ⟨fun j hj => goto_pc_of_ne _ _ hj,
        Or.inr (Or.inr ⟨by simp [hst], hst, goto_pc_self _ i _⟩)⟩
  · next ret hpc =>
    cases h
    exact ⟨fun j hj => goto_pc_of_ne _ _ hj,
      Or.inr (Or.inr (Or.inr (Or.inr (Or.inr ⟨ret, rfl, hpc, goto_pc_self _ i _, rfl⟩))))⟩
  · cases h

theorem TaskInv.keep (h : TaskInv s) (hother : ∀ j, j ≠ i → s'.pc j = s.pc j)
    (hrun : (s'.pc i).running = (s.pc i).running)
    (hstate : s'.state = .start ↔ s.state = .start) : TaskInv s' := by
  have hsame : ∀ j, (s'.pc j).running = (s.pc j).running := by
    intro j
    by_cases hj : j = i
    · rw [hj, hrun]
    · rw [hother j hj]
  refine ⟨fun j k hj hk => h.unique j k (by rwa [← hsame]) (by rwa [← hsame]), ?_⟩
  rw [hstate, h.start]
  exact forall_congr' fun j => by rw [hsame]

theorem TaskInv.step (h : TaskInv s) (hstep : taskStep s (i, a) = some s') : TaskInv s' := by
  obtain ⟨hother, hcase⟩ := taskStep_cases hstep
  rcases hcase with ⟨-, hpc, hpc', hst⟩ | ⟨-, hpc, hlock⟩ | ⟨-, hpc, hpc', hst⟩ |
    ⟨ret, -, hpc, hpc', hst⟩ | ⟨ret, -, hpc, hlock⟩ | ⟨ret, -, hpc, hpc', hst⟩
  · exact h.keep hother (by rw [hpc, hpc']; rfl) (by rw [hst])
  · rcases hlock with ⟨hst, hst', hpc'⟩ | ⟨hst, hst', hpc'⟩
    · -- the caller becomes the runner; there was none
      have hnone := h.start.1 hst
      have honly : ∀ j, (s'.pc j).running → j = i := by
        intro j hj
        by_contra hne
        rw [hother j hne, hnone j] at hj
        cases hj
      refine ⟨fun j k hj hk => (honly j hj).trans (honly k hk).symm, ?_⟩
      rw [hst']
      refine ⟨fun hs => (by cases hs), fun hs => ?_⟩
      have hi := hs i
      rw [hpc'] at hi
      cases hi
    · exact h.keep hother (by rw [hpc, hpc']; rfl) (by simp [hst, hst'])
  · exact h.keep hother (by rw [hpc, hpc']; rfl) (by rw [hst])
  · exact h.keep hother (by rw [hpc, hpc']; rfl) (by rw [hst])
  · have hrun : (s.pc i).running := by
      rw [hpc]
      rfl
    have hne : s.state ≠ .start := fun hstart => by simp [h.start.1 hstart i] at hrun
    rcases hlock with ⟨hst, hst', hpc'⟩ | ⟨hst, hst', hpc'⟩ | ⟨-, hst', hpc'⟩
    · exact h.keep hother (by rw [hpc, hpc']; rfl) (by simp [hne, hst'])
    · exact h.keep hother (by rw [hpc, hpc']; rfl) (by simp [hne, hst'])
    · -- the runner leaves, and there is no other
      have hnone : ∀ j, (s'.pc j).running = false := by
        intro j
        by_cases hj : j = i
        · rw [hj, hpc']
          rfl
        · rw [hother j hj]
          by_contra hyes
          exact hj (h.unique j i (by simpa using hyes) hrun)
      refine ⟨fun j k hj _ => ?_, fun _ => hnone, fun _ => hst'⟩
      rw [hnone j] at hj
      cases hj
  · exact h.keep hother (by rw [hpc, hpc']; rfl) (by rw [hst])

theorem taskInv_run (run : Trace.Run (@taskStep ι _)) (hinit : run.state 0 = {}) (t : ℕ) :
    TaskInv (run.state t) :=
  run.inv (by rw [hinit]; exact taskInv_init) (fun _ a _ h hstep => h.step (i := a.1) hstep) t

/-! ### Wake-ups -/

theorem owes_of_lockEntry (h : TaskInv s) (hstep : taskStep s (i, .lockEntry) = some s') :
    ∃ j, Owes j s' := by
  obtain ⟨hother, hcase⟩ := taskStep_cases hstep
  rcases hcase with ⟨ha, -⟩ | ⟨-, hpc, hlock⟩ | ⟨ha, -⟩ | ⟨ret, ha, -⟩ | ⟨ret, ha, -⟩ | ⟨ret, ha, -⟩
  all_goals try cases ha
  rcases hlock with ⟨-, -, hpc'⟩ | ⟨hst, hst', -⟩
  · exact ⟨i, Or.inl hpc'⟩
  · -- the state was not START, so there is a runner, and it is another caller
    obtain ⟨j, hj⟩ : ∃ j, (s.pc j).running := by
      by_contra hno
      refine hst (h.start.2 fun j => ?_)
      by_contra hyes
      exact hno ⟨j, by simpa using hyes⟩
    have hne : j ≠ i := by
      rintro rfl
      rw [hpc] at hj
      cases hj
    refine ⟨j, ?_⟩
    cases hpcj : s.pc j with
    | call => exact Or.inl ((hother j hne).trans hpcj)
    | func => exact Or.inr ⟨hst', Or.inl ((hother j hne).trans hpcj)⟩
    | returned ret => exact Or.inr ⟨hst', Or.inr ⟨ret, (hother j hne).trans hpcj⟩⟩
    | idle | entry | leaving _ =>
      rw [hpcj] at hj
      cases hj

theorem Owes.other (h : Owes i s) (hinv : TaskInv s) (hne : j ≠ i)
    (hstep : taskStep s (j, a) = some s') : Owes i s' ∧ s'.pc i = s.pc i := by
  obtain ⟨hother, hcase⟩ := taskStep_cases hstep
  have hpc := hother i (Ne.symm hne)
  refine ⟨?_, hpc⟩
  rcases h with hcall | ⟨harmed, hrun⟩
  · exact Or.inl (hpc.trans hcall)
  · refine Or.inr ⟨?_, hpc ▸ hrun⟩
    -- there is one runner at most, so the other caller is none
    have hnot : (s.pc j).running = false := by
      by_contra hyes
      have hrun' : Owes i s := Or.inr ⟨harmed, hrun⟩
      exact hne (hinv.unique j i (by simpa using hyes) hrun'.running)
    rcases hcase with ⟨-, -, -, hst⟩ | ⟨-, -, hlock⟩ | ⟨-, hpcj, -⟩ | ⟨ret, -, hpcj, -⟩ |
      ⟨ret, -, hpcj, -⟩ | ⟨ret, -, -, -, hst⟩
    · rw [hst, harmed]
    · rcases hlock with ⟨hst, -⟩ | ⟨-, hst', -⟩
      · rw [harmed] at hst
        cases hst
      · exact hst'
    · rw [hpcj] at hnot
      cases hnot
    · rw [hpcj] at hnot
      cases hnot
    · rw [hpcj] at hnot
      cases hnot
    · rw [hst, harmed]

/-- Steps the bound runner still has to take before it calls `func`. -/
def TaskPc.distance : TaskPc → ℕ
  | .func => 2
  | .returned _ => 1
  | _ => 0

theorem Owes.own (h : Owes i s) (hstep : taskStep s (i, a) = some s') :
    a = .invoke ∨ Owes i s' ∧ (s'.pc i).distance < (s.pc i).distance := by
  obtain ⟨-, hcase⟩ := taskStep_cases hstep
  rcases hcase with ⟨-, hpc, -⟩ | ⟨-, hpc, -⟩ | ⟨ha, -⟩ | ⟨ret, -, hpc, hpc', hst⟩ |
    ⟨ret, -, hpc, hlock⟩ | ⟨ret, -, hpc, -⟩
  · have hrun := h.running
    rw [hpc] at hrun
    cases hrun
  · have hrun := h.running
    rw [hpc] at hrun
    cases hrun
  · exact Or.inl ha
  · right
    rcases h with hcall | ⟨harmed, -⟩
    · cases hpc.symm.trans hcall
    · rw [hpc, hpc']
      exact ⟨Or.inr ⟨hst.trans harmed, Or.inr ⟨ret, hpc'⟩⟩, Nat.lt_succ_self 1⟩
  · right
    have harmed : s.state = .armed := by
      rcases h with hcall | ⟨harmed, -⟩
      · cases hpc.symm.trans hcall
      · exact harmed
    -- an armed task is called again
    have hpc' : s'.pc i = .call := by
      rcases hlock with ⟨-, -, hpc'⟩ | ⟨hst, -⟩ | ⟨hst, -⟩
      · exact hpc'
      · cases hst.symm.trans harmed
      · exact absurd harmed hst
    rw [hpc, hpc']
    exact ⟨Or.inl hpc', Nat.one_pos⟩
  · have hrun := h.running
    rw [hpc] at hrun
    cases hrun

theorem Owes.step (h : Owes i s) (hinv : TaskInv s) (hstep : taskStep s (j, a) = some s') :
    Owes i s' ∨ a = .invoke := by
  by_cases hj : j = i
  · subst hj
    exact (h.own hstep).symm.imp_left And.left
  · exact Or.inl (h.other hinv hj hstep).1

end Inv

section Runs

variable {ι : Type} [DecidableEq ι] (run : Trace.Run (@taskStep ι _))

/-- The runner is not left standing: `func` returns, and a caller inside the loop goes on. -/
def FairRunner : Prop :=
  ∀ t i, ((run.state t).pc i).running → ∃ u a, t ≤ u ∧ run.act u = some (i, a)

variable {run}

/-- `func` is called at time `u`. -/
def Invoked (run : Trace.Run (@taskStep ι _)) (u : ℕ) : Prop :=
  ∃ j, run.act u = some (j, .invoke)

/-- A bound runner of a fair run calls `func`.  The induction is on the steps it still has
to take. -/
theorem Owes.invoked (hinv : ∀ t, TaskInv (run.state t)) (hfair : FairRunner run) :
    ∀ (n t : ℕ) {i : ι}, Owes i (run.state t) → ((run.state t).pc i).distance = n →
      ∃ u, t ≤ u ∧ Invoked run u := by
  intro n
  induction n using Nat.strong_induction_on with
  | _ n ih =>
    intro t i howes hdist
    obtain ⟨u₀, a₀, hle₀, hact₀⟩ := hfair t i howes.running
    -- up to the first step of the runner nothing happens to it
    obtain ⟨u, a, hle, hact, hfirst⟩ : ∃ u a, t ≤ u ∧ run.act u = some (i, a) ∧
        ∀ v, t ≤ v → v < u → ∀ a', run.act v ≠ some (i, a') := by
      classical
      have hex : ∃ u, t ≤ u ∧ ∃ a, run.act u = some (i, a) := ⟨u₀, hle₀, a₀, hact₀⟩
      obtain ⟨hle, a, hact⟩ := Nat.find_spec hex
      exact ⟨Nat.find hex, a, hle, hact, fun v htv hvu a' hv =>
        Nat.find_min hex hvu ⟨htv, a', hv⟩⟩
    have hwait : ∀ v, t ≤ v → v ≤ u →
        Owes i (run.state v) ∧ (run.state v).pc i = (run.state t).pc i := by
      intro v htv
      induction v, htv using Nat.le_induction with
      | base => exact fun _ => ⟨howes, rfl⟩
      | succ v htv ihv =>
        intro hvu
        obtain ⟨hv, hpc⟩ := ihv (by omega)
        cases hv' : run.act v with
        | none =>
          rw [run.stutter v hv']
          exact ⟨hv, hpc⟩
        | some b =>
          have hne : b.1 ≠ i := by
            rintro rfl
            exact hfirst v htv (by omega) b.2 hv'
          obtain ⟨ho, hpc'⟩ := hv.other (hinv v) hne (run.taken v b hv')
          exact ⟨ho, hpc'.trans hpc⟩
    obtain ⟨hu, hpcu⟩ := hwait u hle (Nat.le_refl u)
    rcases hu.own (run.taken u (i, a) hact) with rfl | ⟨hnext, hlt⟩
    · exact ⟨u, hle, i, hact⟩
    · rw [hpcu, hdist] at hlt
      obtain ⟨v, hv, hinvoked⟩ := ih _ hlt (u + 1) hnext rfl
      exact ⟨v, by omega, hinvoked⟩

end Runs

/-- In every run of any number of callers, `func` is inside at most one of them, the state
is START when all have left, and after the section in which a call reads the state `func`
is called again: before all callers have left, and in any case if the runner goes on. -/
theorem rxeDoTask_wakeup {ι : Type} [DecidableEq ι] (run : Trace.Run (@taskStep ι _))
    (hinit : run.state 0 = {}) :
    (∀ t i j, (run.state t).pc i = .func → (run.state t).pc j = .func → i = j) ∧
      (∀ t, (∀ i, (run.state t).pc i = .idle) → (run.state t).state = .start) ∧
      ∀ t i, run.act t = some (i, .lockEntry) →
        (∀ t', t < t' → (∀ j, (run.state t').pc j = .idle) →
          ∃ u, t < u ∧ u < t' ∧ Invoked run u) ∧
        (FairRunner run → ∃ u, t < u ∧ Invoked run u) := by
  have hinv := taskInv_run run hinit
  refine ⟨fun t i j hi hj => ?_, fun t hidle => ?_, fun t i hact => ?_⟩
  · exact (hinv t).unique i j (by rw [hi]; rfl) (by rw [hj]; rfl)
  · refine (hinv t).start.2 fun i => ?_
    rw [hidle i]
    rfl
  · obtain ⟨j, howes⟩ := owes_of_lockEntry (hinv t) (run.taken t _ hact)
    refine ⟨fun t' hlt hidle => ?_, fun hfair => ?_⟩
    · have hpers := run.persists (P := Owes j) (E := fun a => a.2 = .invoke) howes hlt
        fun u a s' _ hu hstep => hu.step (hinv u) (j := a.1) hstep
      rcases hpers with hend | ⟨u, a, hle, hlt', hu, ha⟩
      · have hrun := hend.running
        rw [hidle j] at hrun
        cases hrun
      · exact ⟨u, hle, hlt', a.1, by rw [hu, ← ha]⟩
    · obtain ⟨u, hle, hinvoked⟩ := howes.invoked hinv hfair _ (t + 1) rfl
      exact ⟨u, hle, hinvoked⟩

/-- A second caller comes while the first is inside `func`. -/
def wakeupActs : List (Bool × TaskAct) :=
  [(false, .enter), (true, .enter), (false, .lockEntry), (false, .invoke), (true, .lockEntry),
    (false, .funcReturn 1), (false, .lockLoop), (false, .invoke), (false, .funcReturn 1),
    (false, .lockLoop), (false, .leave)]

def wakeupState : ℕ → TaskSys Bool
  | 0 => {}
  | t + 1 => (wakeupActs[t]?.bind (taskStep (wakeupState t))).getD (wakeupState t)

def wakeupRun : Trace.Run (@taskStep Bool _) where
  state := wakeupState
  act t := wakeupActs[t]?
  stutter t h := by rw [wakeupState, h]; rfl
  taken t a h := by
    have hlt : t < 11 := (List.getElem?_eq_some_iff.1 h).1
    have hsome : ∀ u < 11, (wakeupActs[u]?.bind (taskStep (wakeupState u))).isSome := by decide
    have hnext := hsome t hlt
    rw [h, Option.bind_some] at hnext
    obtain ⟨s, hs⟩ := Option.isSome_iff_exists.1 hnext
    rw [wakeupState, h, Option.bind_some, hs]
    rfl

/-- The second caller returns at once, and `func` is called again for it. -/
theorem rxeDoTask_wakeup_armed :
    (wakeupRun.state 5).state = .armed ∧ ∃ u, 4 < u ∧ u < 11 ∧ Invoked wakeupRun u :=
  ⟨rfl, ((rxeDoTask_wakeup wakeupRun rfl).2.2 4 true rfl).1 11 (by decide)
    fun j => (by cases j <;> rfl)⟩

end Rxe
