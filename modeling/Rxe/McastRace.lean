/-
Multicast calls that run at the same time.

Each call of the multicast verbs, each cleanup of a QP and each multicast packet is an operation
that goes from one section under a lock, or one change of a reference count, to the next; the
operations take their steps in any order.  The group of an MGID is looked up, created, put into
the tree and taken out of it in separate sections, so other operations can come in between.

* `McOp`, `McOp.step` — where an operation is, and its next step;
* `RaceOk` — what no step may meet: a group in the tree that has lost its last reference, a
  second new group for an MGID, a group that was never in the tree being taken out of it, and an
  element that a cleanup has taken off one of its lists;
* `McOp.Inv`, `RaceInv` — what each operation knows, and how the references add up;
* `mcast_race` — in a run that never meets these, no operation uses a group without references,
  and the tree has every QP that was attached in the one group of its MGID.
-/
import Mathlib.Algebra.Order.BigOperators.Group.List
import Mathlib.Algebra.Order.Group.Nat
import Mathlib.Algebra.Ring.Nat
import Rxe.Mcast

namespace Rxe

open SearchTree

/-! ### Operations under way -/

/-- Where an operation is: the step it takes next. -/
inductive McOp
  /-- `rxe_attach_mcast` before the lookup of the group -/
  | attach (qp mgid : ℕ)
  /-- before `rxe_alloc` and `mcast_add` -/
  | create (qp mgid : ℕ)
  | addKey (qp mgid g : ℕ)
  /-- before `rxe_mcast_add_grp_elem` -/
  | join (qp mgid g : ℕ)
  | attachPut (g : ℕ) (ret : Except McErr Unit)
  /-- `rxe_mcast_drop_grp_elem` before the lookup of the group -/
  | detach (qp mgid : ℕ)
  | unlink (qp mgid g : ℕ)
  | freeElem (a g : ℕ)
  | memberPut (g : ℕ)
  | detachPut (g : ℕ) (ret : Except McErr Unit)
  /-- `rxe_drop_all_mcast_groups` before the section under `grp_lock` -/
  | cleanup (qp : ℕ)
  /-- before the section under `mcg_lock` -/
  | leave (qp a : ℕ)
  | cleanupPut (qp a g : ℕ)
  | cleanupFree (qp a : ℕ)
  /-- `rxe_rcv_mcast_pkt` before the lookup of the group -/
  | recv (mgid : ℕ)
  | deliver (g : ℕ)
  | recvPut (g : ℕ)
  /-- `rxe_mc_cleanup` of the group whose last reference the operation has dropped -/
  | dropKey (g : ℕ) (next : McOp)
  | free (g : ℕ) (next : McOp)
  | done (ret : Except McErr Unit)

/-- What the caches, the interface and the tree code answer. -/
structure McEnv where
  rot : BinaryTree ℕ → BinaryTree ℕ := id
  addr : Option ℕ := none
  added : Bool := true

/-- `kref_put` of a group; the operation that drops the last reference goes on to the cleanup. -/
def putStep (s : McSys) (g : ℕ) (next : McOp) : McSys × McOp :=
  let grps := rxeDropRef s.grps g
  ({ s with grps }, if (grps.elem g).any (·.refCnt = 0) then .dropKey g next else next)

/-- The next step of an operation. -/
def McOp.step (env : McEnv) (s : McSys) : McOp → Option (McSys × McOp)
  | .attach qp mgid =>
    if s.maxAttach = 0 then some (s, .done (.error .inval))
    else
      match rxePoolGetKey s.grps mgid with
      | (some g, grps) => some ({ s with grps }, .join qp mgid g)
      | (none, grps) => some ({ s with grps }, .create qp mgid)
  | .create qp mgid =>
    match rxeAlloc s.grps env.addr {} with
    | (none, grps) => some ({ s with grps }, .done (.error .nomem))
    | (some g, grps) =>
      some ({ s with grps }, if env.added then .addKey qp mgid g else .attachPut g (.error .failed))
  | .addKey qp mgid g =>
    some ({ s with grps := rxeAddKey env.rot s.grps g mgid }, .join qp mgid g)
  | .join qp _ g =>
    match rxeMcastAddGrpElem s qp g env.addr with
    | (ret, s) => some (s, .attachPut g ret)
  | .attachPut g ret => some (putStep s g (.done ret))
  | .detach qp mgid =>
    match rxePoolGetKey s.grps mgid with
    | (none, grps) => some ({ s with grps }, .done (.error .inval))
    | (some g, grps) => some ({ s with grps }, .unlink qp mgid g)
  | .unlink qp _ g =>
    match unlinkElem s qp g with
    | (none, s) => some (s, .detachPut g (.error .inval))
    | (some a, s) => some (s, .freeElem a g)
  | .freeElem a g => some ({ s with elems := putElem s.elems a }, .memberPut g)
  | .memberPut g => some (putStep s g (.detachPut g (.ok ())))
  | .detachPut g ret => some (putStep s g (.done ret))
  | .cleanup qp =>
    match s.grpList qp with
    | [] => some (s, .done (.ok ()))
    | a :: _ => some (leaveQp s qp a, .leave qp a)
  | .leave qp a =>
    let g := grpAt s.elems a
    some (leaveGrp s g a, .cleanupPut qp a g)
  | .cleanupPut qp a g => some (putStep s g (.cleanupFree qp a))
  | .cleanupFree qp a => some ({ s with elems := putElem s.elems a }, .cleanup qp)
  | .recv mgid =>
    match rxePoolGetKey s.grps mgid with
    | (none, grps) => some ({ s with grps }, .done (.ok ()))
    | (some g, grps) => some ({ s with grps }, .deliver g)
  | .deliver g => some (s, .recvPut g)
  | .recvPut g => some (putStep s g (.done (.ok ())))
  | .dropKey g next => some ({ s with grps := rxeDropKey env.rot s.grps g }, .free g next)
  | .free g next => some ({ s with grps := rxeElemRelease s.grps g }, next)
  | .done _ => none

/-- The QPs attached and not detached since, with the MGIDs: a QP is attached or detached in
the section that changes the list of the group. -/
def McOp.record (env : McEnv) (s : McSys) (members : Finset (ℕ × ℕ)) : McOp → Finset (ℕ × ℕ)
  | .join qp mgid g =>
    if (rxeMcastAddGrpElem s qp g env.addr).1.isOk then insert (qp, mgid) members else members
  | .unlink qp mgid g => if (unlinkElem s qp g).1.isSome then members.erase (qp, mgid) else members
  | .leave qp a => members.erase (qp, mgidAt s.grps (grpAt s.elems a))
  | _ => members

/-- The device, the operations under way and those that are done, and the QPs attached. -/
structure McRace where
  sys : McSys
  ops : List McOp := []
  members : Finset (ℕ × ℕ) := ∅

inductive RaceAct
  | call (op : McOp)
  | step (i : ℕ) (env : McEnv)

/-- The operations at their start. -/
def McOp.isCall : McOp → Bool
  | .attach .. | .detach .. | .cleanup _ | .recv _ => true
  | _ => false

def raceStep (s : McRace) : RaceAct → Option McRace
  | .call op => if op.isCall then some { s with ops := s.ops ++ [op] } else none
  | .step i env =>
    -- the caches hand out free addresses
    if ∀ e ∈ env.addr, e ∉ s.sys.grps.slab ∧ e ∉ s.sys.elems.slab then
      match s.ops[i]? with
      | none => none
      | some op => (op.step env s.sys).map fun r =>
          { sys := r.1, ops := s.ops.set i r.2, members := op.record env s.sys s.members }
    else none

/-- The tree is rebalanced somehow. -/
def EnvOk : RaceAct → Prop
  | .call _ => True
  | .step _ env => Rebalances env.rot

/-- A lookup meets no group that has lost its last reference. -/
def LookupOk (s : McSys) (mgid : ℕ) : Prop :=
  ∀ g x, s.grps.elem g = some x → x.phase = .indexed → x.obj.mgid = mgid → x.refCnt ≠ 0

/-- What the next step of an operation must not meet. -/
def McOp.Ok (s : McSys) : McOp → Prop
  | .attach _ mgid | .detach _ mgid | .recv mgid => LookupOk s mgid
  | .addKey _ mgid _ => ∀ g, s.grps.Indexed g → mgidAt s.grps g ≠ mgid
  | .dropKey g _ => s.grps.Indexed g ∨ s.grps.tree = .nil
  | .unlink qp _ g => ∀ a ∈ qpListAt s.grps g, qpAt s.elems a = some qp → a ∈ s.grpList qp
  | _ => True

def RaceOk (s : McRace) : RaceAct → Prop
  | .call _ => True
  | .step i _ => ∀ op ∈ s.ops[i]?, op.Ok s.sys

/-- The group that the next step of an operation takes or uses a reference to. -/
def McOp.Touches (s : McSys) (g : ℕ) : McOp → Prop
  | .attach _ mgid | .detach _ mgid | .recv mgid => (rxePoolGetKey s.grps mgid).1 = some g
  | .addKey _ _ h | .join _ _ h | .attachPut h _ | .unlink _ _ h | .freeElem _ h | .memberPut h
  | .detachPut h _ | .cleanupPut _ _ h | .deliver h | .recvPut h => h = g
  | .leave _ a => grpAt s.elems a = g
  | _ => False

/-! ### What the operations hold -/

/-- The references to a group that an operation holds. -/
def McOp.holds (g : ℕ) : McOp → ℕ
  | .addKey _ _ h | .join _ _ h | .attachPut h _ | .unlink _ _ h | .detachPut h _
  | .cleanupPut _ _ h | .deliver h | .recvPut h => if h = g then 1 else 0
  | .freeElem _ h | .memberPut h => if h = g then 2 else 0
  | .dropKey _ next | .free _ next => next.holds g
  | _ => 0

/-- The groups that an operation is about to free. -/
def McOp.releases (g : ℕ) : McOp → ℕ
  | .dropKey h next | .free h next => (if h = g then 1 else 0) + next.releases g
  | _ => 0

/-- The elements that an operation has taken off their lists. -/
def McOp.owns (a : ℕ) : McOp → ℕ
  | .freeElem b _ | .leave _ b | .cleanupPut _ b _ | .cleanupFree _ b => if b = a then 1 else 0
  | .dropKey _ next | .free _ next => next.owns a
  | _ => 0

/-- A group at some stage of its life, with its MGID. -/
def GrpAt (p : Pool McGrp) (g : ℕ) (phase : IndexPhase) (mgid : ℕ) : Prop :=
  ∃ x, p.elem g = some x ∧ x.phase = phase ∧ x.obj.mgid = mgid

/-- What an operation holds, frees and owns. -/
def McOp.account (op : McOp) : (ℕ → ℕ) × (ℕ → ℕ) × (ℕ → ℕ) :=
  (fun g => op.holds g, fun g => op.releases g, fun a => op.owns a)

/-- What an operation knows. -/
def McOp.Inv (s : McSys) : McOp → Prop
  | .addKey _ _ g => ∃ mgid, GrpAt s.grps g .fresh mgid
  | .join _ mgid g | .unlink _ mgid g => GrpAt s.grps g .indexed mgid
  | .freeElem a _ | .cleanupPut _ a _ | .cleanupFree _ a =>
    ∃ y, s.elems.elem a = some y ∧ y.obj.link = .off
  | .leave qp a => ∃ y, s.elems.elem a = some y ∧ y.obj.link = .grp ∧ y.obj.qp = qp
  | .dropKey _ next => next.Inv s
  | .free g next => (∃ mgid, GrpAt s.grps g .dropped mgid) ∧ next.Inv s
  | _ => True

/-- Add up over the operations. -/
def tally (f : McOp → ℕ) (ops : List McOp) : ℕ := (ops.map f).sum

theorem tally_append (f : McOp → ℕ) (l l' : List McOp) :
    tally f (l ++ l') = tally f l + tally f l' := by
  unfold tally
  rw [List.map_append, List.sum_append]

theorem tally_cons (f : McOp → ℕ) (op : McOp) (l : List McOp) :
    tally f (op :: l) = f op + tally f l :=
  rfl

theorem le_tally {f : McOp → ℕ} {op : McOp} {l : List McOp} (h : op ∈ l) : f op ≤ tally f l :=
  List.le_sum_of_mem (List.mem_map_of_mem h)

/-- 1 for a group without references. -/
def deadAt (p : Pool McGrp) (g : ℕ) : ℕ := (p.elem g).elim 0 fun x => if x.refCnt = 0 then 1 else 0

/-- 1 for an element that is not on both of its lists. -/
def looseAt (p : Pool McElem) (a : ℕ) : ℕ :=
  (p.elem a).elim 0 fun y => if y.obj.link = .both then 0 else 1

/-- The QP is on the list of a group with the MGID. -/
def Joined (s : McSys) (qp mgid : ℕ) : Prop :=
  ∃ g, mgidAt s.grps g = mgid ∧ ∃ a ∈ qpListAt s.grps g, qpAt s.elems a = some qp

/-- The operation `op` beside the others. -/
structure Focus (s : McSys) (members : Finset (ℕ × ℕ)) (rest : List McOp) (op : McOp) : Prop where
  grps : GrpsInv s.maxAttach (fun g => tally (McOp.holds g) rest + op.holds g) s.grps
  links : LinkInv s.elems (qpListAt s.grps) s.grpList
  others : ∀ o ∈ rest, o.Inv s
  self : op.Inv s
  dead : ∀ g, tally (McOp.releases g) rest + op.releases g = deadAt s.grps g
  loose : ∀ a, tally (McOp.owns a) rest + op.owns a = looseAt s.elems a
  members : ∀ qp mgid, (qp, mgid) ∈ members ↔ Joined s qp mgid

/-- All operations, beside one that has nothing. -/
def RaceInv (s : McRace) : Prop := Focus s.sys s.members s.ops (.done (.ok ()))

section Facts

variable {s s' : McSys} {members : Finset (ℕ × ℕ)} {rest : List McOp} {op op' o : McOp}
  {p p' : Pool McGrp} {g a : ℕ} {x : Elem McGrp}

/-- What an operation knows depends on the groups it holds or frees, and on the elements it
has taken off. -/
theorem McOp.Inv.frame (h : o.Inv s)
    (hgrp : ∀ g phase mgid, 0 < o.holds g + o.releases g → GrpAt s.grps g phase mgid →
      GrpAt s'.grps g phase mgid)
    (helem : ∀ a, 0 < o.owns a → s'.elems.elem a = s.elems.elem a) : o.Inv s' := by
  induction o with
  | addKey qp mgid g =>
    obtain ⟨m, hm⟩ := h
    exact ⟨m, hgrp g _ m (by simp [McOp.holds, McOp.releases]) hm⟩
  | join _ mgid g | unlink _ mgid g => exact hgrp g _ mgid (by simp [McOp.holds, McOp.releases]) h
  | freeElem a | cleanupPut _ a | cleanupFree _ a | leave _ a =>
    unfold McOp.Inv
    rw [helem a (by simp [McOp.owns])]
    exact h
  -- what an operation goes on to after a cleanup keeps its own groups and elements
  | dropKey g next ih =>
    refine ih h (fun g' phase mgid hpos => hgrp g' phase mgid ?_) helem
    unfold McOp.holds McOp.releases
    omega
  | free g next ih =>
    obtain ⟨⟨m, hm⟩, hnext⟩ := h
    refine ⟨⟨m, hgrp g _ m ?_ hm⟩, ih hnext (fun g' phase mgid hpos => hgrp g' phase mgid ?_) helem⟩
    · simp [McOp.holds, McOp.releases]
    · unfold McOp.holds McOp.releases
      omega
  | _ => trivial

theorem GrpAt.setElem {f : Elem McGrp → Elem McGrp} {phase : IndexPhase} {mgid g' : ℕ}
    (h : GrpAt p g' phase mgid)
    (hf : ∀ x, (f x).phase = x.phase ∧ (f x).obj.mgid = x.obj.mgid) :
    GrpAt (p.setElem g f) g' phase mgid := by
  obtain ⟨x, hx, hphase, hmgid⟩ := h
  by_cases hne : g' = g
  · subst hne
    refine ⟨f x, setElem_self hx, (hf x).1.trans hphase, (hf x).2.trans hmgid⟩
  · exact ⟨x, by rw [setElem_of_ne hne, hx], hphase, hmgid⟩

theorem deadAt_of_elem (hx : p.elem g = some x) : deadAt p g = if x.refCnt = 0 then 1 else 0 := by
  unfold deadAt
  rw [hx]
  rfl

theorem looseAt_of_elem {q : Pool McElem} {y : Elem McElem} (hy : q.elem a = some y) :
    looseAt q a = if y.obj.link = .both then 0 else 1 := by
  unfold looseAt
  rw [hy]
  rfl

theorem Focus.sameGrps (h : Focus s members rest op)
    (hgrps : GrpsInv s.maxAttach (fun g => tally (McOp.holds g) rest + op'.holds g) p')
    (hlist : qpListAt p' = qpListAt s.grps)
    (hmgid : ∀ g, qpListAt s.grps g ≠ [] → mgidAt p' g = mgidAt s.grps g)
    (hothers : ∀ o ∈ rest, ∀ g phase mgid, 0 < o.holds g + o.releases g →
      GrpAt s.grps g phase mgid → GrpAt p' g phase mgid)
    (hself : op'.Inv { s with grps := p' })
    (hdead : ∀ g, tally (McOp.releases g) rest + op'.releases g = deadAt p' g)
    (howns : ∀ a, op'.owns a = op.owns a) :
    Focus { s with grps := p' } members rest op' where
  grps := hgrps
  links := by
    rw [hlist]
    exact h.links
  others o ho := (h.others o ho).frame (hothers o ho) fun _ _ => rfl
  self := hself
  dead := hdead
  loose a := by
    rw [howns]
    exact h.loose a
  -- only a group with members needs to keep its MGID
  members qp mgid := by
    rw [h.members]
    unfold Joined
    rw [hlist]
    refine exists_congr fun g => and_congr_left fun hmem => ?_
    obtain ⟨a, ha, -⟩ := hmem
    rw [hmgid g (List.ne_nil_of_mem ha)]

theorem Focus.held (h : Focus s members rest op) (hpos : 0 < op.holds g) :
    ∃ x, s.grps.elem g = some x ∧ x.refCnt ≠ 0 := by
  cases hx : s.grps.elem g with
  | none =>
    have hzero : tally (McOp.holds g) rest + op.holds g = 0 := h.grps.gone g hx
    omega
  | some x =>
    have hrefs : x.refCnt = x.obj.qpList.length + (tally (McOp.holds g) rest + op.holds g) :=
      (h.grps.grp g x hx).refs
    exact ⟨x, rfl, by omega⟩

theorem Focus.member (h : Focus s members rest op) (hmem : a ∈ qpListAt s.grps g) :
    ∃ x, s.grps.elem g = some x ∧ x.refCnt ≠ 0 := by
  obtain ⟨x, hx, -⟩ := h.grps.indexed_of_mem hmem
  have hrefs := (h.grps.grp g x hx).refs
  rw [qpListAt_of_elem hx] at hmem
  have hpos := List.length_pos_of_mem hmem
  exact ⟨x, hx, by omega⟩

end Facts

/-! ### The groups change -/

section GroupSteps

variable {s : McSys} {members : Finset (ℕ × ℕ)} {rest : List McOp} {op op' next : McOp}
  {g mgid : ℕ} {x : Elem McGrp} {rot : BinaryTree ℕ → BinaryTree ℕ}

theorem update_holds {o : McOp} {n : ℕ} (hother : ∀ g', g' ≠ g → op'.holds g' = o.holds g')
    (hself : tally (McOp.holds g) rest + op'.holds g = n) :
    Function.update (fun g => tally (McOp.holds g) rest + o.holds g) g n =
      fun g => tally (McOp.holds g) rest + op'.holds g := by
  funext g'
  by_cases hne : g' = g
  · subst hne
    rw [Function.update_self]
    exact hself.symm
  · rw [Function.update_of_ne hne, hother g' hne]

theorem update_holds_succ
    (hholds : ∀ g', op'.holds g' = op.holds g' + if g = g' then 1 else 0) :
    Function.update (fun g => tally (McOp.holds g) rest + op.holds g) g
      (tally (McOp.holds g) rest + op.holds g + 1) =
      fun g => tally (McOp.holds g) rest + op'.holds g := by
  refine update_holds (fun g' hne => ?_) ?_
  · rw [hholds, if_neg hne.symm, Nat.add_zero]
  · rw [hholds, if_pos rfl, Nat.add_assoc]

theorem Focus.addRef (h : Focus s members rest op) (hin : s.grps.Indexed g)
    (hlive : LookupOk s (mgidAt s.grps g))
    (hholds : ∀ g', op'.holds g' = op.holds g' + if g = g' then 1 else 0)
    (hrel : ∀ g', op'.releases g' = op.releases g') (howns : ∀ a, op'.owns a = op.owns a)
    (hself : op'.Inv { s with grps := rxeAddRef s.grps g }) :
    Focus { s with grps := rxeAddRef s.grps g } members rest op' := by
  have hgrps := h.grps.addRef hin
  obtain ⟨x, hx, hphase⟩ := hin
  have hne : x.refCnt ≠ 0 := hlive g x hx hphase (mgidAt_of_elem hx).symm
  refine h.sameGrps ?_ (rxeAddRef_qpListAt s.grps g) (fun g' _ => ?_) ?_ hself ?_ howns
  · rw [← update_holds_succ hholds]
    exact hgrps
  · rw [rxeAddRef_mgidAt]
  · exact fun _ _ g' phase mgid _ hat => hat.setElem fun _ => ⟨rfl, rfl⟩
  · intro g'
    rw [hrel, h.dead]
    by_cases hne' : g' = g
    · subst hne'
      have hself' : (rxeAddRef s.grps g').elem g' = some { x with refCnt := x.refCnt + 1 } :=
        setElem_self hx
      rw [deadAt_of_elem hx, deadAt_of_elem hself', if_neg hne, if_neg (Nat.succ_ne_zero _)]
    · unfold deadAt rxeAddRef
      rw [setElem_of_ne hne']

theorem Focus.put (h : Focus s members rest op)
    (hholds : ∀ g', op.holds g' = next.holds g' + if g = g' then 1 else 0)
    (hrel : ∀ g', op.releases g' = 0) (hrel' : ∀ g', next.releases g' = 0)
    (howns : ∀ a, op.owns a = next.owns a) (hnext : next.Inv s) :
    Focus (putStep s g next).1 members rest (putStep s g next).2 := by
  have hone : op.holds g = next.holds g + 1 := by rw [hholds, if_pos rfl]
  obtain ⟨x, hx, hne⟩ := h.held (g := g) (by omega)
  have hself : (rxeDropRef s.grps g).elem g = some { x with refCnt := x.refCnt - 1 } :=
    setElem_self hx
  have hgrps := h.grps.dropRef (g := g) (by omega)
  have hheld : ∀ next' : McOp, (∀ g', next'.holds g' = next.holds g') →
      GrpsInv s.maxAttach (fun g => tally (McOp.holds g) rest + next'.holds g)
        (rxeDropRef s.grps g) := by
    intro next' hsame
    rw [← update_holds (o := op) (g := g)
      (n := tally (McOp.holds g) rest + op.holds g - 1)]
    · exact hgrps
    · intro g' hne'
      rw [hsame, hholds, if_neg hne'.symm, Nat.add_zero]
    · rw [hsame, hone]
      omega
  have hkeep : ∀ g' phase mgid, GrpAt s.grps g' phase mgid →
      GrpAt (rxeDropRef s.grps g) g' phase mgid := fun g' phase mgid hat =>
    hat.setElem fun _ => ⟨rfl, rfl⟩
  have hinv : next.Inv { s with grps := rxeDropRef s.grps g } :=
    hnext.frame (fun g' phase mgid _ => hkeep g' phase mgid) fun _ _ => rfl
  have hdead : ∀ g', g' ≠ g → deadAt (rxeDropRef s.grps g) g' = deadAt s.grps g' := by
    intro g' hne'
    unfold deadAt rxeDropRef
    rw [setElem_of_ne hne']
  -- nobody else frees the group while there is a reference to it
  have hzero : tally (McOp.releases g) rest = 0 := by
    have hd := h.dead g
    rw [deadAt_of_elem hx, if_neg hne] at hd
    omega
  unfold putStep
  dsimp only
  rw [hself]
  split
  · next hlast =>
    have hlast' : x.refCnt - 1 = 0 := by simpa using hlast
    refine h.sameGrps (hheld _ fun _ => rfl) (rxeDropRef_qpListAt s.grps g) (fun g' _ => ?_)
      (fun _ _ g' phase mgid _ => hkeep g' phase mgid) hinv (fun g' => ?_) fun a => (howns a).symm
    · rw [rxeDropRef_mgidAt]
    · unfold McOp.releases
      rw [hrel']
      by_cases hne' : g' = g
      · subst hne'
        rw [deadAt_of_elem hself, if_pos hlast', if_pos rfl, hzero]
      · rw [hdead g' hne', ← h.dead, hrel, if_neg (Ne.symm hne')]
  · next hlast =>
    have hlast' : x.refCnt - 1 ≠ 0 := by simpa using hlast
    refine h.sameGrps (hheld _ fun _ => rfl) (rxeDropRef_qpListAt s.grps g) (fun g' _ => ?_)
      (fun _ _ g' phase mgid _ => hkeep g' phase mgid) hinv (fun g' => ?_) fun a => (howns a).symm
    · rw [rxeDropRef_mgidAt]
    · rw [hrel']
      by_cases hne' : g' = g
      · subst hne'
        rw [deadAt_of_elem hself, if_neg hlast', hzero]
      · rw [hdead g' hne', ← h.dead, hrel]

theorem Focus.changeGrp {p' : Pool McGrp} (h : Focus s members rest op)
    (hgrps : GrpsInv s.maxAttach (fun g => tally (McOp.holds g) rest + op'.holds g) p')
    (hother : ∀ g', g' ≠ g → p'.elem g' = s.grps.elem g') (hempty : qpListAt s.grps g = [])
    (hempty' : qpListAt p' g = []) (hholds : tally (McOp.holds g) rest = 0)
    (hrel : tally (McOp.releases g) rest = 0) (hself : op'.Inv { s with grps := p' })
    (hdead : op'.releases g = deadAt p' g)
    (hdead' : ∀ g', g' ≠ g → op'.releases g' = op.releases g')
    (howns : ∀ a, op'.owns a = op.owns a) : Focus { s with grps := p' } members rest op' := by
  refine h.sameGrps hgrps ?_ ?_ ?_ hself ?_ howns
  · funext g'
    by_cases hne : g' = g
    · rw [hne, hempty, hempty']
    · unfold qpListAt
      rw [hother g' hne]
  · intro g' hlist
    have hne : g' ≠ g := by
      rintro rfl
      exact hlist hempty
    unfold mgidAt
    rw [hother g' hne]
  -- none of the others knows anything about `g`
  · rintro o ho g' phase mgid' hpos ⟨y, hy, hat⟩
    have hne : g' ≠ g := by
      rintro rfl
      have hle := le_tally (f := McOp.holds g') ho
      have hle' := le_tally (f := McOp.releases g') ho
      omega
    exact ⟨y, (hother g' hne).trans hy, hat⟩
  · intro g'
    by_cases hne : g' = g
    · rw [hne, hrel, Nat.zero_add]
      exact hdead
    · rw [hdead' g' hne, h.dead]
      unfold deadAt
      rw [hother g' hne]

theorem Focus.new (h : Focus s members rest op) (hfree : g ∉ s.grps.slab)
    (hholds : ∀ g', op'.holds g' = op.holds g' + if g = g' then 1 else 0)
    (hrel : ∀ g', op.releases g' = 0) (hrel' : ∀ g', op'.releases g' = 0)
    (howns : ∀ a, op'.owns a = op.owns a)
    (hself : ∀ p : Pool McGrp, p.elem g = some { obj := {} } → op'.Inv { s with grps := p }) :
    Focus { s with grps := { s.grps with
      refCnt := s.grps.refCnt + 1, numElem := s.grps.numElem + 1, slab := insert g s.grps.slab
      elem := Function.update s.grps.elem g (some { obj := {} }) } } members rest op' := by
  have hnone : s.grps.elem g = none := by
    rw [h.grps.alloc.slab] at hfree
    simpa using hfree
  -- an address that is free has no references
  have hzero : tally (McOp.holds g) rest + op.holds g = 0 := h.grps.gone g hnone
  have hdead : tally (McOp.releases g) rest + op.releases g = 0 := by
    rw [h.dead]
    unfold deadAt
    rw [hnone]
    rfl
  have hgrps := h.grps.new hfree
  generalize hp : ({ s.grps with
    refCnt := s.grps.refCnt + 1, numElem := s.grps.numElem + 1, slab := insert g s.grps.slab
    elem := Function.update s.grps.elem g (some { obj := {} }) } : Pool McGrp) = p at hgrps ⊢
  have hnew : p.elem g = some { obj := {} } := by
    rw [← hp]
    exact Function.update_self ..
  refine h.changeGrp (g := g) ?_ ?_ ?_ (qpListAt_of_elem hnew) (by omega) (by omega) (hself p hnew)
    ?_ (fun g' _ => (hrel' g').trans (hrel g').symm) howns
  · rw [← update_holds_succ hholds, hzero]
    exact hgrps
  · intro g' hne
    rw [← hp]
    exact Function.update_of_ne hne ..
  · unfold qpListAt
    rw [hnone]
    rfl
  · rw [hrel', deadAt_of_elem hnew]
    rfl

theorem Focus.addKey {qp : ℕ} (h : Focus s members rest (.addKey qp mgid g))
    (hnew : ∀ g', s.grps.Indexed g' → mgidAt s.grps g' ≠ mgid) (hrot : Rebalances rot) :
    Focus { s with grps := rxeAddKey rot s.grps g mgid } members rest (.join qp mgid g) := by
  obtain ⟨m, x, hx, hphase, -⟩ := h.self
  have hkeyed : x.phase ≠ .indexed := by
    rw [hphase]
    nofun
  have hg := h.grps.grp g x hx
  have hone : McOp.holds g (.addKey qp mgid g) = 1 := if_pos rfl
  have hrefs : x.refCnt = x.obj.qpList.length +
      (tally (McOp.holds g) rest + McOp.holds g (.addKey qp mgid g)) := hg.refs
  have hfresh := hg.fresh hphase
  have hdead : tally (McOp.releases g) rest + 0 = deadAt s.grps g := h.dead g
  rw [deadAt_of_elem hx, if_neg (by omega)] at hdead
  have heq := rxeAddKey_eq rot h.grps hx hkeyed hnew
  have hself : (rxeAddKey rot s.grps g mgid).elem g =
      some { x with phase := .indexed, obj := { x.obj with mgid } } := by
    rw [heq, setElem_same]
    show Option.map _ (s.grps.elem g) = _
    rw [hx]
    rfl
  -- until now only its creator knew the group
  refine h.changeGrp (g := g) (h.grps.addKey hx hkeyed hnew hrot) ?_ ?_ ?_ (by omega) hdead
    ⟨_, hself, rfl, rfl⟩ ?_ (fun _ _ => rfl) fun _ => rfl
  · intro g' hne
    rw [heq]
    exact setElem_of_ne hne
  · rw [qpListAt_of_elem hx]
    exact hg.empty hkeyed
  · rw [qpListAt_of_elem hself]
    exact hg.empty hkeyed
  · rw [deadAt_of_elem hself]
    exact (if_neg (show x.refCnt ≠ 0 by omega)).symm

/-- The group that an operation frees has no references, and nobody else frees it. -/
theorem Focus.released (h : Focus s members rest op) (hpos : 0 < op.releases g) :
    ∃ x, s.grps.elem g = some x ∧ x.refCnt = 0 ∧ x.obj.qpList = [] ∧
      tally (McOp.holds g) rest = 0 ∧ op.holds g = 0 ∧
      tally (McOp.releases g) rest = 0 ∧ op.releases g = 1 := by
  have hdead := h.dead g
  cases hx : s.grps.elem g with
  | none =>
    unfold deadAt at hdead
    rw [hx] at hdead
    change _ = 0 at hdead
    omega
  | some x =>
    rw [deadAt_of_elem hx] at hdead
    have hzero : x.refCnt = 0 := by
      by_contra hne
      rw [if_neg hne] at hdead
      omega
    rw [if_pos hzero] at hdead
    have hrefs : x.refCnt = x.obj.qpList.length + (tally (McOp.holds g) rest + op.holds g) :=
      (h.grps.grp g x hx).refs
    exact ⟨x, rfl, hzero, List.length_eq_zero_iff.1 (by omega), by omega, by omega, by omega,
      by omega⟩

theorem releases_dropKey (g h : ℕ) (next : McOp) :
    McOp.releases g (.dropKey h next) = (if h = g then 1 else 0) + next.releases g := rfl

theorem releases_free (g h : ℕ) (next : McOp) :
    McOp.releases g (.free h next) = (if h = g then 1 else 0) + next.releases g := rfl

theorem McOp.Inv.other {p' : Pool McGrp} (h : next.Inv s)
    (hother : ∀ g', g' ≠ g → p'.elem g' = s.grps.elem g') (hholds : next.holds g = 0)
    (hrel : next.releases g = 0) : next.Inv { s with grps := p' } := by
  refine h.frame ?_ fun _ _ => rfl
  rintro g' phase mgid' hpos ⟨y, hy, hat⟩
  have hne : g' ≠ g := by
    rintro rfl
    omega
  exact ⟨y, (hother g' hne).trans hy, hat⟩

theorem Focus.dropKey (h : Focus s members rest (.dropKey g next))
    (hkey : s.grps.Indexed g ∨ s.grps.tree = .nil) (hrot : Rebalances rot) :
    Focus { s with grps := rxeDropKey rot s.grps g } members rest (.free g next) := by
  have hreleases := releases_dropKey g g next
  rw [if_pos rfl] at hreleases
  obtain ⟨x, hx, hzero, hempty, hrest, hholds, hrel, hone⟩ := h.released (g := g) (by omega)
  have hnext : next.Inv s := h.self
  have hphase : x.phase = .indexed ∨ s.grps.tree = .nil := by
    refine hkey.imp_left ?_
    rintro ⟨y, hy, hy'⟩
    cases hx.symm.trans hy
    exact hy'
  have hself : (rxeDropKey rot s.grps g).elem g = some { x with phase := .dropped } := by
    unfold rxeDropKey
    rw [setElem_same]
    show Option.map _ (s.grps.elem g) = _
    rw [hx]
    rfl
  have hother : ∀ g', g' ≠ g → (rxeDropKey rot s.grps g).elem g' = s.grps.elem g' :=
    fun g' hne => setElem_of_ne hne
  refine h.changeGrp (g := g) (h.grps.dropKey hx hzero hphase hrot) hother ?_ ?_ hrest hrel
    ⟨⟨_, _, hself, rfl, rfl⟩, hnext.other hother hholds (by omega)⟩ ?_ (fun _ _ => rfl) fun _ => rfl
  · rw [qpListAt_of_elem hx]
    exact hempty
  · rw [qpListAt_of_elem hself]
    exact hempty
  · rw [deadAt_of_elem hself]
    exact hone.trans (if_pos hzero).symm

theorem Focus.release (h : Focus s members rest (.free g next)) :
    Focus { s with grps := rxeElemRelease s.grps g } members rest next := by
  have hreleases := releases_free g g next
  rw [if_pos rfl] at hreleases
  obtain ⟨x, hx, hzero, hempty, hrest, hholds, hrel, hone⟩ := h.released (g := g) (by omega)
  obtain ⟨⟨m, y, hy, hphase, -⟩, hnext⟩ := h.self
  cases hx.symm.trans hy
  have hself : (rxeElemRelease s.grps g).elem g = none := Function.update_self ..
  have hother : ∀ g', g' ≠ g → (rxeElemRelease s.grps g).elem g' = s.grps.elem g' :=
    fun g' hne => Function.update_of_ne hne ..
  refine h.changeGrp (g := g) (h.grps.release hx hzero (by rw [hphase]; nofun)) hother ?_ ?_ hrest
    hrel (hnext.other hother hholds (by omega)) ?_ ?_ fun _ => rfl
  · rw [qpListAt_of_elem hx]
    exact hempty
  · unfold qpListAt
    rw [hself]
    rfl
  · unfold deadAt
    rw [hself]
    change _ = 0
    omega
  · intro g' hne
    rw [releases_free, if_neg hne.symm, Nat.zero_add]

end GroupSteps

/-! ### The lists change -/

section ListSteps

variable {s s' : McSys} {members members' : Finset (ℕ × ℕ)} {rest : List McOp} {op op' : McOp}
  {qp mgid g a : ℕ} {x : Elem McGrp} {y : Elem McElem}

theorem Focus.changeElem (h : Focus s members rest op)
    (hgrps : GrpsInv s'.maxAttach (fun g => tally (McOp.holds g) rest + op'.holds g) s'.grps)
    (hlinks : LinkInv s'.elems (qpListAt s'.grps) s'.grpList)
    (hat : ∀ g phase mgid, GrpAt s.grps g phase mgid → GrpAt s'.grps g phase mgid)
    (hother : ∀ b, b ≠ a → s'.elems.elem b = s.elems.elem b) (howns : tally (McOp.owns a) rest = 0)
    (hself : op'.Inv s') (hdead : ∀ g, deadAt s'.grps g = deadAt s.grps g)
    (hrel : ∀ g, op'.releases g = op.releases g) (hloose : op'.owns a = looseAt s'.elems a)
    (hloose' : ∀ b, b ≠ a → op'.owns b = op.owns b)
    (hmembers : ∀ qp mgid, (qp, mgid) ∈ members' ↔ Joined s' qp mgid) :
    Focus s' members' rest op' where
  grps := hgrps
  links := hlinks
  others o ho := by
    refine (h.others o ho).frame (fun g phase mgid _ => hat g phase mgid) fun b hpos => hother b ?_
    rintro rfl
    have hle := le_tally (f := McOp.owns b) ho
    omega
  self := hself
  dead g := by
    rw [hrel, hdead]
    exact h.dead g
  loose b := by
    by_cases hne : b = a
    · rw [hne, howns, Nat.zero_add]
      exact hloose
    · rw [hloose' b hne, h.loose]
      unfold looseAt
      rw [hother b hne]
  members := hmembers

theorem Focus.not_owned (h : Focus s members rest op) (hy : s.elems.elem a = some y)
    (hown : op.owns a = if y.obj.link = .both then 0 else 1) : tally (McOp.owns a) rest = 0 := by
  have hloose := h.loose a
  rw [looseAt_of_elem hy] at hloose
  omega

theorem qpAt_of_elem {p : Pool McElem} (hy : p.elem a = some y) : qpAt p a = some y.obj.qp := by
  unfold qpAt
  rw [hy]
  rfl

theorem leaveGrp_elem (hy : s.elems.elem a = some y) : (leaveGrp s g a).elems.elem a =
    some { y with obj := { y.obj with link := .off } } := by
  exact onElem_elem (f := fun e => { e with link := .off }) hy

theorem leaveQp_elem (qp : ℕ) (hy : s.elems.elem a = some y) : (leaveQp s qp a).elems.elem a =
    some { y with obj := { y.obj with link := .grp } } := by
  exact onElem_elem (f := fun e => { e with link := .grp }) hy

theorem leaveQp_qpAt (s : McSys) (qp a : ℕ) : qpAt (leaveQp s qp a).elems = qpAt s.elems := by
  funext b
  unfold qpAt leaveQp Pool.onElem
  by_cases hne : b = a
  · rw [hne, setElem_same, Option.map_map]
    rfl
  · rw [setElem_of_ne hne]

theorem joined_leave {max : ℤ} {held : ℕ → ℕ} (hgrps : GrpsInv max held s.grps)
    (hlinks : LinkInv s.elems (qpListAt s.grps) s.grpList) (hy : s.elems.elem a = some y)
    (hgrp : y.obj.grp = g) (hlink : y.obj.link ≠ .off) (hmgid : mgidAt s'.grps = mgidAt s.grps)
    (hlist : qpListAt s'.grps = Function.update (qpListAt s.grps) g ((qpListAt s.grps g).erase a))
    (hqp : qpAt s'.elems = qpAt s.elems) (qp mgid : ℕ) :
    Joined s' qp mgid ↔ Joined s qp mgid ∧ (qp, mgid) ≠ (y.obj.qp, mgidAt s.grps g) := by
  have hmem : a ∈ qpListAt s.grps g := (hlinks.onGrp g a).2 ⟨y, hy, hgrp, hlink⟩
  unfold Joined
  rw [hmgid, hlist, hqp]
  constructor
  · rintro ⟨g', rfl, b, hb, hbqp⟩
    obtain ⟨hb, hnot⟩ := (mem_update_erase hlinks.grpNodup).1 hb
    refine ⟨⟨g', rfl, b, hb, hbqp⟩, fun heq => hnot ?_⟩
    obtain ⟨rfl, hsame⟩ := Prod.mk.inj heq
    -- an element of the same QP in a group of this MGID is `a` itself
    have hg : g' = g :=
      hgrps.mgid_inj (hgrps.indexed_of_mem hb) (hgrps.indexed_of_mem hmem) hsame
    obtain ⟨z, hz, hzgrp, hzlink⟩ := (hlinks.onGrp g' b).1 hb
    rw [qpAt_of_elem hz] at hbqp
    exact ⟨hlinks.once b a z y hz hy hzlink hlink (Option.some.inj hbqp)
      (hzgrp.trans (hg.trans hgrp.symm)), hg⟩
  · rintro ⟨⟨g', rfl, b, hb, hbqp⟩, hne⟩
    refine ⟨g', rfl, b, (mem_update_erase hlinks.grpNodup).2 ⟨hb, ?_⟩, hbqp⟩
    rintro ⟨rfl, rfl⟩
    rw [qpAt_of_elem hy] at hbqp
    exact hne (Prod.ext (Option.some.inj hbqp).symm rfl)

theorem Focus.recorded (h : Focus s members rest op) (hat : GrpAt s.grps g .indexed mgid)
    (hmem : a ∈ qpListAt s.grps g) (hqp : qpAt s.elems a = some qp) : (qp, mgid) ∈ members := by
  obtain ⟨x, hx, -, rfl⟩ := hat
  exact (h.members _ _).2 ⟨g, mgidAt_of_elem hx, a, hmem, hqp⟩

theorem Focus.congr (h : Focus s members rest op) (hsame : op'.account = op.account)
    (hself : op'.Inv s) : Focus s members rest op' := by
  have hholds : ∀ g, op'.holds g = op.holds g := congrFun (congrArg Prod.fst hsame)
  have hrel : ∀ g, op'.releases g = op.releases g := congrFun (congrArg (·.2.1) hsame)
  have howns : ∀ a, op'.owns a = op.owns a := congrFun (congrArg (·.2.2) hsame)
  refine { h with grps := ?_, self := hself, dead := ?_, loose := ?_ }
  · simp only [hholds]
    exact h.grps
  · simp only [hrel]
    exact h.dead
  · simp only [howns]
    exact h.loose

theorem Focus.join {addr : Option ℕ} (h : Focus s members rest (.join qp mgid g))
    (haddr : ∀ a ∈ addr, a ∉ s.elems.slab) :
    Focus (rxeMcastAddGrpElem s qp g addr).2
      (if (rxeMcastAddGrpElem s qp g addr).1.isOk then insert (qp, mgid) members else members) rest
      (.attachPut g (rxeMcastAddGrpElem s qp g addr).1) := by
  have hat : GrpAt s.grps g .indexed mgid := h.self
  obtain ⟨x, hx, hphase, hmgid⟩ := hat
  obtain ⟨x', hx', hlive⟩ := h.held (g := g) (by simp [McOp.holds])
  cases hx.symm.trans hx'
  rcases rxeMcastAddGrpElem_cases s qp g addr with
    ⟨⟨a, ha, hqp⟩, heq⟩ | ⟨hnew, heq | ⟨a, hsome, hlimit, heq⟩⟩
  -- the QP is a member already
  · rw [heq]
    have hrec := h.recorded ⟨x, hx, hphase, hmgid⟩ ha hqp
    rw [Finset.insert_eq_self.2 hrec]
    exact h.congr rfl trivial
  -- there is no room for another member, or no memory
  · rw [heq]
    exact h.congr rfl trivial
  · rw [heq]
    have hfree := haddr a hsome
    obtain ⟨hgrps, hlinks, hlist, helem⟩ :=
      joinGrp_inv h.grps h.links ⟨x, hx, hphase⟩ hfree hlimit hnew
    have hnone : s.elems.elem a = none := by
      rw [h.links.alloc.slab] at hfree
      simpa using hfree
    have hzero : tally (McOp.owns a) rest = 0 := by
      have hloose := h.loose a
      unfold looseAt at hloose
      rw [hnone] at hloose
      change _ = 0 at hloose
      omega
    change Focus _ (insert (qp, mgid) members) rest _
    generalize hs' : joinGrp _ qp g a = s' at hgrps hlinks hlist helem ⊢
    have hself : s'.grps.elem g = some { x with
        refCnt := x.refCnt + 1
        obj := { x.obj with numQp := x.obj.numQp + 1, qpList := a :: x.obj.qpList } } := by
      rw [← hs']
      exact setElem_self (setElem_self hx)
    have hother : ∀ g', g' ≠ g → s'.grps.elem g' = s.grps.elem g' := by
      intro g' hne
      rw [← hs']
      exact (setElem_of_ne hne).trans (setElem_of_ne hne)
    have hmgid' : mgidAt s'.grps = mgidAt s.grps := by
      rw [← hs']
      exact joinGrp_mgidAt _ qp g a
    refine h.changeElem (a := a) hgrps hlinks ?_ ?_ hzero trivial ?_ (fun _ => rfl) ?_
      (fun _ _ => rfl) ?_
    · rintro g' phase mgid' ⟨z, hz, hzat⟩
      by_cases hne : g' = g
      · subst hne
        cases hx.symm.trans hz
        exact ⟨_, hself, hzat⟩
      · exact ⟨z, (hother g' hne).trans hz, hzat⟩
    · intro b hne
      rw [helem, Function.update_of_ne hne]
    · intro g'
      by_cases hne : g' = g
      · rw [hne, deadAt_of_elem hself, deadAt_of_elem hx, if_neg hlive, if_neg (Nat.succ_ne_zero _)]
      · unfold deadAt
        rw [hother g' hne]
    · unfold looseAt
      rw [helem, Function.update_self]
      rfl
    -- the new element is the only one that was not there before
    · intro qp' mgid''
      rw [Finset.mem_insert, h.members]
      unfold Joined
      rw [hmgid', hlist]
      constructor
      · rintro (heq' | ⟨g', hg', b, hb, hbqp⟩)
        · cases heq'
          refine ⟨g, (mgidAt_of_elem hx).trans hmgid, a, mem_update_cons.2 (Or.inr ⟨rfl, rfl⟩), ?_⟩
          unfold qpAt
          rw [helem, Function.update_self]
          rfl
        · refine ⟨g', hg', b, mem_update_cons.2 (Or.inl hb), ?_⟩
          have hne : b ≠ a := by
            rintro rfl
            unfold qpAt at hbqp
            rw [hnone] at hbqp
            cases hbqp
          unfold qpAt at hbqp ⊢
          rw [helem, Function.update_of_ne hne]
          exact hbqp
      · rintro ⟨g', hg', b, hb, hbqp⟩
        unfold qpAt at hbqp
        rw [helem] at hbqp
        by_cases hne : b = a
        · left
          subst hne
          rw [Function.update_self] at hbqp
          have hg : g' = g := by
            rcases mem_update_cons.1 hb with hold | ⟨-, hg⟩
            · obtain ⟨z, hz, -⟩ := (h.links.onGrp g' b).1 hold
              rw [hnone] at hz
              cases hz
            · exact hg
          rw [hg, mgidAt_of_elem hx, hmgid] at hg'
          exact Prod.ext (Option.some.inj hbqp).symm hg'.symm
        · right
          rw [Function.update_of_ne hne] at hbqp
          rcases mem_update_cons.1 hb with hold | ⟨hb', -⟩
          · exact ⟨g', hg', b, hold, hbqp⟩
          · exact absurd hb' hne

/-- An element has been taken off the list of its group; the operation holds the reference of
the member. -/
theorem Focus.left (h : Focus s members rest op) (hy : s.elems.elem a = some y)
    (hgrp : y.obj.grp = g) (hlink : y.obj.link ≠ .off) (hmax : s'.maxAttach = s.maxAttach)
    (hgrps : s'.grps = s.grps.onGrp g fun grp =>
      { grp with numQp := grp.numQp - 1, qpList := grp.qpList.erase a })
    (hlinks : LinkInv s'.elems (Function.update (qpListAt s.grps) g ((qpListAt s.grps g).erase a))
      s'.grpList)
    (hself : s'.elems.elem a = some { y with obj := { y.obj with link := .off } })
    (hother : ∀ b, b ≠ a → s'.elems.elem b = s.elems.elem b) (howns : tally (McOp.owns a) rest = 0)
    (hholds : ∀ g', op'.holds g' = op.holds g' + if g = g' then 1 else 0)
    (hrel : ∀ g, op'.releases g = op.releases g) (hloose : op'.owns a = 1)
    (hloose' : ∀ b, b ≠ a → op'.owns b = op.owns b) (hinv : op'.Inv s') :
    Focus s' (members.erase (y.obj.qp, mgidAt s.grps g)) rest op' := by
  have hmem : a ∈ qpListAt s.grps g := (h.links.onGrp g a).2 ⟨y, hy, hgrp, hlink⟩
  obtain ⟨hinv', hlist⟩ := h.grps.leave hmem
  rw [← hgrps] at hinv' hlist
  have hmgid : mgidAt s'.grps = mgidAt s.grps := by
    rw [hgrps]
    exact setElem_mgidAt fun _ => rfl
  have hqp : qpAt s'.elems = qpAt s.elems := by
    funext b
    by_cases hne : b = a
    · rw [hne, qpAt_of_elem hself, qpAt_of_elem hy]
    · unfold qpAt
      rw [hother b hne]
  refine h.changeElem (a := a) ?_ ?_ ?_ hother howns hinv ?_ hrel ?_ hloose' ?_
  · rw [hmax, ← update_holds_succ hholds]
    exact hinv'
  · rw [hlist]
    exact hlinks
  · intro g' phase mgid' hat
    rw [hgrps]
    exact hat.setElem fun _ => ⟨rfl, rfl⟩
  · intro g'
    rw [hgrps]
    unfold deadAt Pool.onGrp
    by_cases hne : g' = g
    · rw [hne, setElem_same]
      cases s.grps.elem g <;> rfl
    · rw [setElem_of_ne hne]
  · rw [hloose, looseAt_of_elem hself]
    rfl
  · intro qp' mgid'
    rw [Finset.mem_erase, h.members, joined_leave h.grps h.links hy hgrp hlink hmgid hlist hqp]
    exact and_comm

theorem Focus.unlink (h : Focus s members rest (.unlink qp mgid g))
    (hon : ∀ a ∈ qpListAt s.grps g, qpAt s.elems a = some qp → a ∈ s.grpList qp) :
    match unlinkElem s qp g with
    | (none, s') => Focus s' members rest (.detachPut g (.error .inval))
    | (some a, s') => Focus s' (members.erase (qp, mgid)) rest (.freeElem a g) := by
  have hat : GrpAt s.grps g .indexed mgid := h.self
  obtain ⟨x, hx, hphase, hmgid⟩ := hat
  rcases unlinkElem_cases s qp g with ⟨-, heq⟩ | ⟨a, ha, hqp, heq⟩
  · rw [heq]
    exact h.congr rfl trivial
  · rw [heq]
    -- the element is still on both lists, so no cleanup has taken it
    obtain ⟨y, hy, hyqp, hboth⟩ := (h.links.onQp qp a).1 (hon a ha hqp)
    obtain ⟨y', hy', hgrp, hlink⟩ := (h.links.onGrp g a).1 ha
    cases hy.symm.trans hy'
    have hzero := h.not_owned hy (if_pos hboth).symm
    have hlinks := (h.links.leaveQp hy hyqp hboth).leaveGrp (onElem_elem hy) hgrp rfl
    have hself : (leaveGrp (leaveQp s qp a) g a).elems.elem a =
        some { y with obj := { y.obj with link := .off } } := by
      have hfirst := leaveQp_elem qp hy
      have hboth := leaveGrp_elem (g := g) hfirst
      exact hboth
    have hleft : Focus (leaveGrp (leaveQp s qp a) g a)
        (members.erase (y.obj.qp, mgidAt s.grps g)) rest (.freeElem a g) := by
      refine h.left hy hgrp hlink rfl rfl hlinks hself
        (fun b hne => (setElem_of_ne hne).trans (setElem_of_ne hne)) hzero (fun g' => ?_)
        (fun _ => rfl) (if_pos rfl) (fun b hne => if_neg hne.symm) ⟨_, hself, rfl⟩
      simp only [McOp.holds]
      split <;> rfl
    rw [hyqp, mgidAt_of_elem hx, hmgid] at hleft
    exact hleft

theorem Focus.leave (h : Focus s members rest (.leave qp a)) :
    Focus (leaveGrp s (grpAt s.elems a) a)
      (members.erase (qp, mgidAt s.grps (grpAt s.elems a))) rest
      (.cleanupPut qp a (grpAt s.elems a)) := by
  obtain ⟨y, hy, hlink, hqp⟩ := h.self
  have hgrp : y.obj.grp = grpAt s.elems a := by
    unfold grpAt
    rw [hy]
    rfl
  have hne : y.obj.link ≠ .off := by
    rw [hlink]
    nofun
  have hzero := h.not_owned hy ((if_pos rfl).trans (if_neg (by rw [hlink]; nofun)).symm)
  have hlinks := h.links.leaveGrp hy hgrp hlink
  have hself : (leaveGrp s (grpAt s.elems a) a).elems.elem a =
      some { y with obj := { y.obj with link := .off } } := leaveGrp_elem hy
  rw [← hqp]
  refine h.left hy hgrp hne rfl rfl hlinks hself (fun b hne => setElem_of_ne hne) hzero ?_
    (fun _ => rfl) (if_pos rfl) (fun _ _ => rfl) ⟨_, hself, rfl⟩
  intro g'
  simp only [McOp.holds, Nat.zero_add]

theorem Focus.cleanup (h : Focus s members rest (.cleanup qp)) (ha : a ∈ s.grpList qp) :
    Focus (leaveQp s qp a) members rest (.leave qp a) := by
  obtain ⟨y, hy, hqp, hboth⟩ := (h.links.onQp qp a).1 ha
  have hself : (leaveQp s qp a).elems.elem a =
      some { y with obj := { y.obj with link := .grp } } := leaveQp_elem qp hy
  have hzero := h.not_owned hy (if_pos hboth).symm
  refine h.changeElem (a := a) h.grps (h.links.leaveQp hy hqp hboth) (fun _ _ _ hat => hat)
    (fun b hne => setElem_of_ne hne) hzero ⟨_, hself, rfl, hqp⟩ (fun _ => rfl) (fun _ => rfl) ?_
    (fun b hne => if_neg hne.symm) ?_
  · rw [looseAt_of_elem hself]
    exact if_pos rfl
  · intro qp' mgid'
    rw [h.members]
    unfold Joined
    rw [leaveQp_qpAt]
    rfl

theorem Focus.freeElem (h : Focus s members rest op) (hy : s.elems.elem a = some y)
    (hlink : y.obj.link = .off) (hone : op.owns a = 1) (hholds : ∀ g, op'.holds g = op.holds g)
    (hrel : ∀ g, op'.releases g = op.releases g) (howns : op'.owns a = 0)
    (howns' : ∀ b, b ≠ a → op'.owns b = op.owns b)
    (hself : op'.Inv { s with elems := putElem s.elems a }) :
    Focus { s with elems := putElem s.elems a } members rest op' := by
  obtain ⟨hlinks, helem⟩ := h.links.putElem hy hlink
  have hzero := h.not_owned hy (hone.trans (if_neg (by rw [hlink]; nofun)).symm)
  refine h.changeElem (a := a) ?_ hlinks (fun _ _ _ hat => hat) ?_ hzero hself (fun _ => rfl) hrel
    ?_ howns' ?_
  · simp only [hholds]
    exact h.grps
  · intro b hne
    rw [helem, Function.update_of_ne hne]
  · rw [howns]
    unfold looseAt
    rw [helem, Function.update_self]
    rfl
  · intro qp' mgid'
    rw [h.members]
    refine exists_congr fun g' => and_congr_right fun _ => exists_congr fun b =>
      and_congr_right fun hb => ?_
    -- an element on a list is not the one that is freed
    have hne : b ≠ a := by
      rintro rfl
      obtain ⟨z, hz, -, hzlink⟩ := (h.links.onGrp g' b).1 hb
      cases hy.symm.trans hz
      exact hzlink hlink
    unfold qpAt
    rw [helem, Function.update_of_ne hne]

end ListSteps

/-! ### Runs -/

section Runs

variable {s s' : McSys} {members : Finset (ℕ × ℕ)} {rest : List McOp} {op op' : McOp} {env : McEnv}
  {mgid g : ℕ}

theorem Focus.lookup (h : Focus s members rest op) (hok : LookupOk s mgid)
    (hholds : ∀ g, op.holds g = 0) (hrel : ∀ g, op.releases g = 0) (howns : ∀ a, op.owns a = 0) :
    (∃ g, rxePoolGetKey s.grps mgid = (some g, rxeAddRef s.grps g) ∧
        ∀ op' : McOp, (∀ g', op'.holds g' = if g = g' then 1 else 0) →
          (∀ g', op'.releases g' = 0) → (∀ a, op'.owns a = 0) →
          (∀ p, GrpAt p g .indexed mgid → op'.Inv { s with grps := p }) →
          Focus { s with grps := rxeAddRef s.grps g } members rest op') ∨
      rxePoolGetKey s.grps mgid = (none, s.grps) := by
  rcases h.grps.getKey mgid with ⟨g, hin, hmgid, hget⟩ | ⟨-, hget⟩
  · refine Or.inl ⟨g, hget, fun op' hholds' hrel' howns' hinv => ?_⟩
    refine h.addRef hin (by rw [hmgid]; exact hok) (fun g' => ?_) (fun g' => ?_) (fun a => ?_) ?_
    · rw [hholds', hholds, Nat.zero_add]
    · rw [hrel', hrel]
    · rw [howns', howns]
    · obtain ⟨x, hx, hphase⟩ := hin
      rw [mgidAt_of_elem hx] at hmgid
      exact hinv _ (GrpAt.setElem ⟨x, hx, hphase, hmgid⟩ fun _ => ⟨rfl, rfl⟩)
  · exact Or.inr hget

theorem Focus.step (h : Focus s members rest op) (hrot : Rebalances env.rot)
    (haddr : ∀ e ∈ env.addr, e ∉ s.grps.slab ∧ e ∉ s.elems.slab) (hok : op.Ok s)
    (hstep : op.step env s = some (s', op')) : Focus s' (op.record env s members) rest op' := by
  cases op with
  -- the lookups take a reference to the group they find
  | attach qp mgid =>
    dsimp only [McOp.step] at hstep
    split at hstep
    · cases hstep
      exact h.congr rfl trivial
    · rcases h.lookup hok (fun _ => rfl) (fun _ => rfl) fun _ => rfl with ⟨g, hget, hfound⟩ | hget
      · rw [hget] at hstep
        cases hstep
        exact hfound _ (fun _ => rfl) (fun _ => rfl) (fun _ => rfl) fun _ hat => hat
      · rw [hget] at hstep
        cases hstep
        exact h.congr rfl trivial
  | create qp mgid =>
    dsimp only [McOp.step] at hstep
    rcases rxeAlloc_cases s.grps env.addr {} with heq | ⟨g, hsome, heq⟩
    · rw [heq] at hstep
      cases hstep
      exact h.congr rfl trivial
    · rw [heq] at hstep
      have hfree := (haddr g hsome).1
      cases hadded : env.added <;> rw [hadded] at hstep <;> cases hstep
      · exact h.new hfree (fun _ => (Nat.zero_add _).symm) (fun _ => rfl) (fun _ => rfl)
          (fun _ => rfl) fun _ _ => trivial
      · exact h.new hfree (fun _ => (Nat.zero_add _).symm) (fun _ => rfl) (fun _ => rfl)
          (fun _ => rfl) fun _ hp => ⟨_, _, hp, rfl, rfl⟩
  | addKey qp mgid g =>
    cases hstep
    exact h.addKey hok hrot
  | join qp mgid g =>
    cases hstep
    exact h.join fun a ha => (haddr a ha).2
  -- whoever drops the last reference goes on to the cleanup
  | attachPut g ret | detachPut g ret | recvPut g =>
    cases hstep
    exact h.put (fun _ => (Nat.zero_add _).symm) (fun _ => rfl) (fun _ => rfl)
      (fun _ => rfl) trivial
  | detach qp mgid =>
    dsimp only [McOp.step] at hstep
    rcases h.lookup hok (fun _ => rfl) (fun _ => rfl) fun _ => rfl with ⟨g, hget, hfound⟩ | hget
    · rw [hget] at hstep
      cases hstep
      exact hfound _ (fun _ => rfl) (fun _ => rfl) (fun _ => rfl) fun _ hat => hat
    · rw [hget] at hstep
      cases hstep
      exact h.congr rfl trivial
  | unlink qp mgid g =>
    have hunlink := h.unlink hok
    dsimp only [McOp.step] at hstep
    dsimp only [McOp.record]
    cases heq : unlinkElem s qp g with
    | mk found s₁ =>
      rw [heq] at hunlink hstep
      cases found with
      | none =>
        cases hstep
        exact hunlink
      | some a =>
        cases hstep
        exact hunlink
  | freeElem a g =>
    cases hstep
    obtain ⟨y, hy, hlink⟩ := h.self
    exact h.freeElem hy hlink (if_pos rfl) (fun _ => rfl) (fun _ => rfl) rfl
      (fun b hne => (if_neg hne.symm).symm) trivial
  | memberPut g =>
    cases hstep
    refine h.put (fun g' => ?_) (fun _ => rfl) (fun _ => rfl) (fun _ => rfl) trivial
    simp only [McOp.holds]
    split <;> rfl
  | cleanup qp =>
    dsimp only [McOp.step] at hstep
    split at hstep
    · cases hstep
      exact h.congr rfl trivial
    · next a _ hcons =>
      cases hstep
      exact h.cleanup (by rw [hcons]; exact List.mem_cons_self)
  | leave qp a =>
    cases hstep
    exact h.leave
  | cleanupPut qp a g =>
    cases hstep
    exact h.put (fun _ => (Nat.zero_add _).symm) (fun _ => rfl) (fun _ => rfl) (fun _ => rfl) h.self
  | cleanupFree qp a =>
    cases hstep
    obtain ⟨y, hy, hlink⟩ := h.self
    exact h.freeElem hy hlink (if_pos rfl) (fun _ => rfl) (fun _ => rfl) rfl
      (fun b hne => (if_neg hne.symm).symm) trivial
  | recv mgid =>
    dsimp only [McOp.step] at hstep
    rcases h.lookup hok (fun _ => rfl) (fun _ => rfl) fun _ => rfl with ⟨g, hget, hfound⟩ | hget
    · rw [hget] at hstep
      cases hstep
      exact hfound _ (fun _ => rfl) (fun _ => rfl) (fun _ => rfl) fun _ _ => trivial
    · rw [hget] at hstep
      cases hstep
      exact h.congr rfl trivial
  | deliver g =>
    cases hstep
    exact h.congr rfl trivial
  | dropKey g next =>
    cases hstep
    exact h.dropKey hok hrot
  | free g next =>
    cases hstep
    exact h.release
  | done ret => cases hstep

theorem focus_iff {t₁ t₂ : List McOp} {ret : Except McErr Unit} :
    Focus s members (t₁ ++ op :: t₂) (.done ret) ↔ Focus s members (t₁ ++ t₂) op := by
  have htally : ∀ f : McOp → ℕ, f (.done ret) = 0 →
      tally f (t₁ ++ op :: t₂) + f (.done ret) = tally f (t₁ ++ t₂) + f op := by
    intro f hzero
    rw [tally_append, tally_cons, tally_append, hzero]
    omega
  have hholds := fun g => htally (McOp.holds g) rfl
  have hrel := fun g => htally (McOp.releases g) rfl
  have howns := fun a => htally (McOp.owns a) rfl
  constructor
  · rintro ⟨hgrps, hlinks, hothers, -, hdead, hloose, hmembers⟩
    simp only [hholds] at hgrps
    simp only [hrel] at hdead
    simp only [howns] at hloose
    refine ⟨hgrps, hlinks, fun o ho => hothers o ?_, hothers op ?_, hdead, hloose, hmembers⟩
    · rw [List.mem_append] at ho ⊢
      exact ho.imp_right (List.mem_cons_of_mem op)
    · exact List.mem_append_right t₁ List.mem_cons_self
  · rintro ⟨hgrps, hlinks, hothers, hself, hdead, hloose, hmembers⟩
    simp only [← hholds] at hgrps
    simp only [← hrel] at hdead
    simp only [← howns] at hloose
    refine ⟨hgrps, hlinks, fun o ho => ?_, trivial, hdead, hloose, hmembers⟩
    rcases List.mem_append.1 ho with ho | ho
    · exact hothers o (List.mem_append_left t₂ ho)
    · rcases List.mem_cons.1 ho with rfl | ho
      · exact hself
      · exact hothers o (List.mem_append_right t₁ ho)

theorem ops_split {ops : List McOp} {i : ℕ} (hi : ops[i]? = some op) :
    ∃ t₁ t₂, ops = t₁ ++ op :: t₂ ∧ ∀ op', ops.set i op' = t₁ ++ op' :: t₂ := by
  obtain ⟨hlt, heq⟩ := List.getElem?_eq_some_iff.1 hi
  refine ⟨ops.take i, ops.drop (i + 1), ?_,
    fun op' => List.set_eq_take_append_cons_drop ▸ if_pos hlt⟩
  rw [← heq, List.getElem_cons_drop, List.take_append_drop]

theorem RaceInv.step {s s' : McRace} {a : RaceAct} (h : RaceInv s) (henv : EnvOk a)
    (hok : RaceOk s a) (hstep : raceStep s a = some s') : RaceInv s' := by
  cases a with
  -- a call that starts holds nothing
  | call op =>
    obtain ⟨hcall, ⟨⟩⟩ := Option.ite_none_right_eq_some.1 hstep
    unfold RaceInv
    rw [focus_iff, List.append_nil]
    cases op <;> first
      | exact h.congr rfl trivial
      | cases hcall
  | step i env =>
    obtain ⟨haddr, hstep⟩ := Option.ite_none_right_eq_some.1 hstep
    split at hstep
    · cases hstep
    · next op hop =>
      obtain ⟨⟨sys, op'⟩, hnext, rfl⟩ := Option.map_eq_some_iff.1 hstep
      obtain ⟨t₁, t₂, hops, hset⟩ := ops_split hop
      unfold RaceInv at h ⊢
      rw [hops, focus_iff] at h
      rw [hset, focus_iff]
      exact h.step henv haddr (hok op hop) hnext

theorem raceInv_init {s : McRace} (h : McInit s.sys) (hops : s.ops = [])
    (hmembers : s.members = ∅) :
    RaceInv s := by
  have hinv := mcInit_inv h
  obtain ⟨⟨_, hgrps⟩, ⟨_, helems⟩, -⟩ := h
  unfold RaceInv
  rw [hops, hmembers]
  refine ⟨hinv.grps, hinv.links, nofun, trivial, fun g => ?_, fun a => ?_, fun qp mgid => ?_⟩
  · rw [hgrps]
    rfl
  · rw [helems]
    rfl
  · refine ⟨nofun, ?_⟩
    rintro ⟨g, -, a, ha, -⟩
    rw [hgrps] at ha
    cases ha

/-- The next step takes or uses no reference to a group that has none left. -/
def Clean (s : McRace) : RaceAct → Prop
  | .call _ => True
  | .step i _ => ∀ op ∈ s.ops[i]?, ∀ g, op.Touches s.sys g →
      ∃ x, s.sys.grps.elem g = some x ∧ x.refCnt ≠ 0

theorem Focus.touches (h : Focus s members rest op) (hok : op.Ok s) (htouch : op.Touches s g) :
    ∃ x, s.grps.elem g = some x ∧ x.refCnt ≠ 0 := by
  have hlookup : ∀ mgid, LookupOk s mgid → (rxePoolGetKey s.grps mgid).1 = some g →
      ∃ x, s.grps.elem g = some x ∧ x.refCnt ≠ 0 := by
    intro mgid hlive hfound
    rcases h.grps.getKey mgid with ⟨g', ⟨x, hx, hphase⟩, hmgid, hget⟩ | ⟨-, hget⟩
    · rw [hget] at hfound
      cases hfound
      rw [mgidAt_of_elem hx] at hmgid
      exact ⟨x, hx, hlive _ x hx hphase hmgid⟩
    · rw [hget] at hfound
      cases hfound
  cases op with
  | attach qp mgid => exact hlookup mgid hok htouch
  | detach qp mgid => exact hlookup mgid hok htouch
  | recv mgid => exact hlookup mgid hok htouch
  -- the member that leaves is still on the list of the group
  | leave qp a =>
    obtain ⟨y, hy, hlink, -⟩ := h.self
    have hgrp : y.obj.grp = g := by
      have heq : grpAt s.elems a = g := htouch
      unfold grpAt at heq
      rw [hy] at heq
      exact heq
    exact h.member ((h.links.onGrp g a).2 ⟨y, hy, hgrp, by rw [hlink]; nofun⟩)
  | addKey | join | attachPut | unlink | freeElem | memberPut | detachPut | cleanupPut | deliver
  | recvPut =>
    obtain rfl : _ = g := htouch
    exact h.held (by simp [McOp.holds])
  | create | cleanup | cleanupFree | dropKey | free | done => cases htouch

end Runs

open Trace in
/-- In every run in which no lookup meets a group that has lost its last reference, no second
group is made for an MGID, `rb_erase` gets only nodes that are in the tree, and no call detaches
a QP from a group that its cleanup is about to leave: no step takes or uses a reference to a
group that has none left; there is at most one group for an MGID in the tree; and the QPs in it
are those that were attached and not detached since. -/
theorem mcast_race (s₀ s : McRace) (hinit : McInit s₀.sys) (hops : s₀.ops = [])
    (hmembers : s₀.members = ∅)
    (hreach : Reach raceStep (fun s a => EnvOk a ∧ RaceOk s a) s₀ s) :
    (∀ a, RaceOk s a → Clean s a) ∧
    (∀ g ∈ inorder s.sys.grps.tree, ∀ g' ∈ inorder s.sys.grps.tree,
      mgidAt s.sys.grps g = mgidAt s.sys.grps g' → g = g') ∧
    ∀ qp mgid, (qp, mgid) ∈ s.members ↔ Member s.sys qp mgid := by
  have h : RaceInv s := Reach.inv (raceInv_init hinit hops hmembers)
    (fun _ _ _ h hok hstep => h.step hok.1 hok.2 hstep) hreach
  refine ⟨fun a hok => ?_, fun g hg g' hg' heq => h.grps.sorted.key_inj hg hg' heq,
    fun qp mgid => ?_⟩
  · cases a with
    | call op => trivial
    | step i env =>
      intro op hop g htouch
      obtain ⟨t₁, t₂, hsplit, -⟩ := ops_split hop
      unfold RaceInv at h
      rw [hsplit, focus_iff] at h
      exact h.touches (hok op hop) htouch
  · rw [h.members, member_iff h.grps]
    rfl

/-- The device of `twoMembers` before the first call. -/
def noMembers : McRace := { sys := twoMembers }

/-- QPs 16 and 17 attach at the same time; the second finds the group that the first has put into
the tree and not joined yet. -/
def attachBetween : List RaceAct :=
  [.call (.attach 16 7), .call (.attach 17 7), .step 0 {}, .step 0 { addr := some 100 },
    .step 0 {}, .step 1 {}, .step 0 { addr := some 200 }, .step 1 { addr := some 201 }, .step 1 {},
    .step 0 {}]

theorem plainStep_ok {s : McRace} {i : ℕ} {env : McEnv} {op : McOp} (hop : s.ops[i]? = some op)
    (hrot : env.rot = id) (hok : op.Ok s.sys) : EnvOk (.step i env) ∧ RaceOk s (.step i env) := by
  refine ⟨show Rebalances env.rot from hrot ▸ rebalances_id, ?_⟩
  rintro op' hop'
  cases hop.symm.trans hop'
  exact hok

open Trace in
theorem attachBetween_reach : ∃ s, attachBetween.foldlM raceStep noMembers = some s ∧
    Reach raceStep (fun s a => EnvOk a ∧ RaceOk s a) noMembers s := by
  refine ⟨_, rfl, ?_⟩
  refine .next (.next (.next (.next (.next (.next (.next (.next (.next (.next .start
    (a := .call (.attach 16 7)) ⟨trivial, trivial⟩ rfl)
    (a := .call (.attach 17 7)) ⟨trivial, trivial⟩ rfl)
    (a := .step 0 {}) (plainStep_ok rfl rfl nofun) rfl)
    (a := .step 0 { addr := some 100 }) (plainStep_ok rfl rfl trivial) rfl)
    (a := .step 0 {}) (plainStep_ok rfl rfl ?_) rfl)
    (a := .step 1 {}) (plainStep_ok rfl rfl ?_) rfl)
    (a := .step 0 { addr := some 200 }) (plainStep_ok rfl rfl trivial) rfl)
    (a := .step 1 { addr := some 201 }) (plainStep_ok rfl rfl trivial) rfl)
    (a := .step 1 {}) (plainStep_ok rfl rfl trivial) rfl)
    (a := .step 0 {}) (plainStep_ok rfl rfl trivial) rfl
  -- no group is in the tree when the first is put there
  · rintro g ⟨x, hx, hphase⟩
    by_cases hg : g = 100
    · subst hg
      cases hx
      cases hphase
    · cases (Function.update_of_ne hg ..).symm.trans hx
  -- the group that the second finds has the reference of the first
  · rintro g x hx - -
    by_cases hg : g = 100
    · subst hg
      cases hx
      exact nofun
    · cases (Function.update_of_ne hg ..).symm.trans ((Function.update_of_ne hg ..).symm.trans
        ((Function.update_of_ne hg ..).symm.trans hx))

/-- After it both are members. -/
theorem mcast_race_both : ∃ s, attachBetween.foldlM raceStep noMembers = some s ∧
    s.ops = [.done (.ok ()), .done (.ok ())] ∧ Member s.sys 16 7 ∧ Member s.sys 17 7 := by
  obtain ⟨s, hs, hreach⟩ := attachBetween_reach
  have h := mcast_race noMembers s ⟨⟨4, rfl⟩, ⟨4, rfl⟩, rfl⟩ rfl rfl hreach
  refine ⟨s, hs, ?_, (h.2.2 16 7).1 ?_, (h.2.2 17 7).1 ?_⟩ <;> cases hs
  · rfl
  · decide
  · decide

/-- QP 16 attaches to the group with the MGID 7, with nobody else about. -/
def attachAlone : List RaceAct :=
  [.call (.attach 16 7), .step 0 {}, .step 0 { addr := some 100 }, .step 0 {},
    .step 0 { addr := some 200 }, .step 0 {}]

/-- The first detaches again and drops the last reference to the group; the second finds the
group in the tree and takes a reference, and the group is freed under it. -/
def lookupLate : List RaceAct :=
  attachAlone ++ [.call (.detach 16 7), .step 1 {}, .step 1 {}, .step 1 {}, .step 1 {}, .step 1 {},
    .call (.attach 17 7)]

/-- Two QPs attach to a group that is not there yet; both look it up before either has made it. -/
def attachBoth : List RaceAct :=
  [.call (.attach 16 7), .call (.attach 17 7), .step 0 {}, .step 1 {},
    .step 0 { addr := some 100 }, .step 1 { addr := some 101 }, .step 0 {}, .step 1 {},
    .step 0 { addr := some 200 }, .step 1 { addr := some 201 }, .step 0 {}, .step 1 {}]

/-- A lookup takes a reference to a group that has none left, which is then freed while the
caller uses it.  And two calls that attach at the same time both return 0, with nothing under
way any more, and the second QP is not in the tree. -/
theorem mcast_race_lost :
    (∃ s, lookupLate.foldlM raceStep noMembers = some s ∧ ¬ Clean s (.step 2 {}) ∧
      ∃ s', [RaceAct.step 2 {}, .step 1 {}, .step 1 {}].foldlM raceStep s = some s' ∧
        s'.ops[2]? = some (.join 17 7 100) ∧ s'.sys.grps.elem 100 = none) ∧
    ∃ s, attachBoth.foldlM raceStep noMembers = some s ∧
      s.ops = [.done (.ok ()), .done (.ok ())] ∧ (17, 7) ∈ s.members ∧ ¬ Member s.sys 17 7 := by
  refine ⟨⟨_, rfl, ?_, _, rfl, rfl, rfl⟩, _, rfl, rfl, by decide, ?_⟩
  · intro hclean
    obtain ⟨x, hx, hrefs⟩ := hclean _ rfl 100 rfl
    cases hx
    exact hrefs rfl
  · rintro ⟨g, hg, -, a, ha, hqp⟩
    obtain rfl : g = 100 := List.mem_singleton.1 hg
    obtain rfl : a = 200 := List.mem_singleton.1 ha
    cases hqp

end Rxe
