/-
Multicast groups (`rxe_mcast.c`, and the keyed part of `rxe_pool.c`).

A group is found by its MGID in the tree of its pool, and lives by the references that its
members and the calls under way hold.  A member is an element that is on two lists, the one of
its group and the one of its QP.

* `rxePoolGetKey`, `rxeAddKey`, `rxeDropKey` — the sections under the lock of the pool;
* `rxeAttachMcast`, `rxeDetachMcast`, `rxeDropAllMcastGroups` — the calls;
* `GrpsInv`, `LinkInv` — what holds of the groups, with `held g` references to `g` in the hands
  of calls under way, and of the two lists of every element;
* `mcast_membership` — between calls a group is in the tree exactly if it has a member, and the
  calls return what they have done;
* `mcast_add_failure_iff` — a failing `mcast_add` empties the tree.
-/
import Rxe.Loop
import Rxe.Pool

namespace Rxe

open SearchTree

variable {f : Elem McGrp → Elem McGrp} {lists : ℕ → List ℕ} {p : Pool McGrp}

/-! ### Groups, elements and their lists -/

/-- `struct rxe_mc_grp`; the 16 bytes of an MGID are read as a number, which `memcmp` compares. -/
structure McGrp where
  mgid : ℕ := 0
  numQp : ℤ := 0
  qpList : List ℕ := []

/-- The lists an element is on: that of its group and that of its QP, or the first only, or
none. -/
inductive McLink
  | both | grp | off
  deriving DecidableEq, Repr

/-- `struct rxe_mc_elem`; `link` is not part of it. -/
structure McElem where
  qp : ℕ := 0
  grp : ℕ := 0
  link : McLink := .off

/-- The errors of the calls; `failed` is the one of `mcast_add`. -/
inductive McErr
  | inval | nomem | failed
  deriving DecidableEq, Repr

/-- `attr.max_mcast_qp_attach`, the two pools, and `grp_list` of every QP. -/
structure McSys where
  maxAttach : ℤ
  grps : Pool McGrp
  elems : Pool McElem
  grpList : ℕ → List ℕ := fun _ => []

def mgidAt (p : Pool McGrp) (g : ℕ) : ℕ := (p.elem g).elim 0 fun x => x.obj.mgid

def qpListAt (p : Pool McGrp) (g : ℕ) : List ℕ := (p.elem g).elim [] fun x => x.obj.qpList

def numQpAt (p : Pool McGrp) (g : ℕ) : ℤ := (p.elem g).elim 0 fun x => x.obj.numQp

def qpAt (p : Pool McElem) (a : ℕ) : Option ℕ := (p.elem a).map fun y => y.obj.qp

def grpAt (p : Pool McElem) (a : ℕ) : ℕ := (p.elem a).elim 0 fun y => y.obj.grp

/-- Change the lists and the fields of a group, or of an element. -/
def Pool.onGrp (p : Pool McGrp) (g : ℕ) (f : McGrp → McGrp) : Pool McGrp :=
  p.setElem g fun x => { x with obj := f x.obj }

def Pool.onElem (p : Pool McElem) (a : ℕ) (f : McElem → McElem) : Pool McElem :=
  p.setElem a fun y => { y with obj := f y.obj }

/-! ### The tree -/

/-- `rxe_pool_get_key` -/
def rxePoolGetKey (p : Pool McGrp) (mgid : ℕ) : Option ℕ × Pool McGrp :=
  if p.state ≠ .valid then (none, p)
  else
    match find (mgidAt p) mgid p.tree with
    | none => (none, p)
    | some g => (some g, rxeAddRef p g)

/-- `rxe_add_key`; `insert_key` leaves a node out if one with its key is in the tree. -/
def rxeAddKey (rot : BinaryTree ℕ → BinaryTree ℕ) (p : Pool McGrp) (g mgid : ℕ) : Pool McGrp :=
  let p := p.onGrp g fun grp => { grp with mgid }
  match find (mgidAt p) mgid p.tree with
  | some _ => p
  | none =>
    { p with tree := rot (link (mgidAt p) g p.tree) }.setElem g
      fun x => { x with phase := .indexed }

/-- `rxe_drop_key`.  A node that was never linked has no parent and no children, so `rb_erase`
takes it for the root of a tree of one node. -/
def rxeDropKey (rot : BinaryTree ℕ → BinaryTree ℕ) (p : Pool McGrp) (g : ℕ) : Pool McGrp :=
  { p with
    tree := if (p.elem g).map Elem.phase = some IndexPhase.indexed then rot (erase g p.tree)
      else .nil }.setElem g fun x => { x with phase := .dropped }

/-- `rxe_drop_ref` of a group, with `rxe_mc_cleanup`. -/
def putGrp (rot : BinaryTree ℕ → BinaryTree ℕ) (p : Pool McGrp) (g : ℕ) : Pool McGrp :=
  krefPut (rxeDropKey rot · g) p g

/-- `rxe_drop_ref` of an element -/
def putElem (p : Pool McElem) (a : ℕ) : Pool McElem := krefPut id p a

/-! ### The sections under the locks of a QP and a group -/

/-- The lists and counts after an element has joined. -/
def joinGrp (s : McSys) (qp g a : ℕ) : McSys :=
  { s with
    grps := (rxeAddRef s.grps g).onGrp g fun grp =>
      { grp with numQp := grp.numQp + 1, qpList := a :: grp.qpList }
    elems := s.elems.onElem a fun _ => { qp, grp := g, link := .both }
    grpList := Function.update s.grpList qp (a :: s.grpList qp) }

/-- `rxe_mcast_add_grp_elem` -/
def rxeMcastAddGrpElem (s : McSys) (qp g : ℕ) (addr : Option ℕ) : Except McErr Unit × McSys :=
  if (qpListAt s.grps g).any (qpAt s.elems · = some qp) then (.ok (), s)
  else if s.maxAttach ≤ numQpAt s.grps g then (.error .nomem, s)
  else
    match rxeAlloc s.elems addr {} with
    | (none, elems) => (.error .nomem, { s with elems })
    | (some a, elems) => (.ok (), joinGrp { s with elems } qp g a)

/-- `list_del(&elem->qp_list)` and `num_qp--` -/
def leaveGrp (s : McSys) (g a : ℕ) : McSys :=
  { s with
    grps := s.grps.onGrp g fun grp =>
      { grp with numQp := grp.numQp - 1, qpList := grp.qpList.erase a }
    elems := s.elems.onElem a fun e => { e with link := .off } }

/-- `list_del(&elem->grp_list)` -/
def leaveQp (s : McSys) (qp a : ℕ) : McSys :=
  { s with
    elems := s.elems.onElem a fun e => { e with link := .grp }
    grpList := Function.update s.grpList qp ((s.grpList qp).erase a) }

/-- The section of `rxe_mcast_drop_grp_elem`: the element it has taken off its lists. -/
def unlinkElem (s : McSys) (qp g : ℕ) : Option ℕ × McSys :=
  match (qpListAt s.grps g).find? (qpAt s.elems · = some qp) with
  | none => (none, s)
  | some a => (some a, leaveGrp (leaveQp s qp a) g a)

/-! ### The calls -/

/-- `rxe_mcast_get_grp`; `added` tells whether `mcast_add` of the interface succeeds. -/
def rxeMcastGetGrp (rot : BinaryTree ℕ → BinaryTree ℕ) (s : McSys) (mgid : ℕ) (addr : Option ℕ)
    (added : Bool) : Except McErr ℕ × McSys :=
  if s.maxAttach = 0 then (.error .inval, s)
  else
    match rxePoolGetKey s.grps mgid with
    | (some g, grps) => (.ok g, { s with grps })
    | (none, grps) =>
      match rxeAlloc grps addr {} with
      | (none, grps) => (.error .nomem, { s with grps })
      | (some g, grps) =>
        if added then (.ok g, { s with grps := rxeAddKey rot grps g mgid })
        else (.error .failed, { s with grps := putGrp rot grps g })

/-- `rxe_attach_mcast` -/
def rxeAttachMcast (rot : BinaryTree ℕ → BinaryTree ℕ) (s : McSys) (qp mgid : ℕ)
    (gaddr eaddr : Option ℕ) (added : Bool) : Except McErr Unit × McSys :=
  match rxeMcastGetGrp rot s mgid gaddr added with
  | (.error err, s) => (.error err, s)
  | (.ok g, s) =>
    match rxeMcastAddGrpElem s qp g eaddr with
    | (ret, s) => (ret, { s with grps := putGrp rot s.grps g })

/-- `rxe_detach_mcast`, that is `rxe_mcast_drop_grp_elem` -/
def rxeDetachMcast (rot : BinaryTree ℕ → BinaryTree ℕ) (s : McSys) (qp mgid : ℕ) :
    Except McErr Unit × McSys :=
  match rxePoolGetKey s.grps mgid with
  | (none, grps) => (.error .inval, { s with grps })
  | (some g, grps) =>
    match unlinkElem { s with grps } qp g with
    | (none, s) => (.error .inval, { s with grps := putGrp rot s.grps g })
    | (some a, s) =>
      -- the reference of the member, and the one of the lookup
      (.ok (), { s with elems := putElem s.elems a, grps := putGrp rot (putGrp rot s.grps g) g })

/-- One pass of the loop of `rxe_drop_all_mcast_groups`. -/
def dropPass (rot : BinaryTree ℕ → BinaryTree ℕ) (qp : ℕ) (s : McSys) : McSys ⊕ McSys :=
  match s.grpList qp with
  | [] => .inr s
  | a :: _ =>
    let g := grpAt s.elems a
    let s := leaveGrp (leaveQp s qp a) g a
    .inl { s with grps := putGrp rot s.grps g, elems := putElem s.elems a }

/-- `rxe_drop_all_mcast_groups`, which `rxe_qp_cleanup` calls -/
def rxeDropAllMcastGroups (rot : BinaryTree ℕ → BinaryTree ℕ) (s : McSys) (qp : ℕ) : Option McSys :=
  Loop.run (dropPass rot qp) ((s.grpList qp).length + 1) s

/-- A call, with what the cache and the interface answer. -/
inductive McCall
  | attach (rot : BinaryTree ℕ → BinaryTree ℕ) (qp mgid : ℕ) (gaddr eaddr : Option ℕ) (added : Bool)
  | detach (rot : BinaryTree ℕ → BinaryTree ℕ) (qp mgid : ℕ)
  | cleanup (rot : BinaryTree ℕ → BinaryTree ℕ) (qp : ℕ)

def mcStep (s : McSys) : McCall → Option McSys
  | .attach rot qp mgid gaddr eaddr added => some (rxeAttachMcast rot s qp mgid gaddr eaddr added).2
  | .detach rot qp mgid => some (rxeDetachMcast rot s qp mgid).2
  | .cleanup rot qp => rxeDropAllMcastGroups rot s qp

/-- The caches hand out free addresses, the trees are rebalanced somehow, and `mcast_add`
succeeds. -/
def McOk (s : McSys) : McCall → Prop
  | .attach rot _ _ gaddr eaddr added => Rebalances rot ∧ (∀ g ∈ gaddr, g ∉ s.grps.slab) ∧
      (∀ a ∈ eaddr, a ∉ s.elems.slab) ∧ added = true
  | .detach rot _ _ | .cleanup rot _ => Rebalances rot

/-- The pools are set up and empty. -/
def McInit (s : McSys) : Prop :=
  (∃ maxElem, s.grps = { maxElem, minIndex := 0, maxIndex := 0 }) ∧
    (∃ maxElem, s.elems = { maxElem, minIndex := 0, maxIndex := 0 }) ∧ s.grpList = fun _ => []

/-! ### The groups -/

/-- What holds of a group to which calls under way hold `held` references. -/
structure GrpInv (max : ℤ) (held : ℕ) (x : Elem McGrp) : Prop where
  refs : x.refCnt = x.obj.qpList.length + held
  num : x.obj.numQp = x.obj.qpList.length
  fresh : x.phase = .fresh → x.refCnt ≤ 1
  empty : x.phase ≠ .indexed → x.obj.qpList = []
  limit : x.obj.qpList ≠ [] → x.obj.numQp ≤ max

/-- What holds of the pool of groups. -/
structure GrpsInv (max : ℤ) (held : ℕ → ℕ) (p : Pool McGrp) : Prop where
  alloc : Allocated p
  sorted : Sorted (mgidAt p) p.tree
  tree : ∀ g, g ∈ inorder p.tree ↔ p.Indexed g
  grp : ∀ g x, p.elem g = some x → GrpInv max (held g) x
  gone : ∀ g, p.elem g = none → held g = 0

variable {mgid : ℕ} {rot : BinaryTree ℕ → BinaryTree ℕ}

section Groups

variable {max : ℤ} {held : ℕ → ℕ} {p : Pool McGrp} {g : ℕ} {x : Elem McGrp}

theorem setElem_mgidAt (hf : ∀ x, (f x).obj.mgid = x.obj.mgid) :
    mgidAt (p.setElem g f) = mgidAt p :=
  funext fun _ => setElem_elim hf

theorem setElem_qpListAt (hf : ∀ x, (f x).obj.qpList = x.obj.qpList) :
    qpListAt (p.setElem g f) = qpListAt p :=
  funext fun _ => setElem_elim hf

theorem qpListAt_of_elem (hx : p.elem g = some x) : qpListAt p g = x.obj.qpList := by
  unfold qpListAt
  rw [hx]
  rfl

theorem mgidAt_of_elem (hx : p.elem g = some x) : mgidAt p g = x.obj.mgid := by
  unfold mgidAt
  rw [hx]
  rfl

theorem GrpsInv.setElem {n : ℕ} (h : GrpsInv max held p)
    (hmgid : ∀ x, (f x).obj.mgid = x.obj.mgid) (hphase : ∀ x, (f x).phase = x.phase)
    (hx : p.elem g = some x) (hf : GrpInv max n (f x)) :
    GrpsInv max (Function.update held g n) (p.setElem g f) where
  alloc := h.alloc.setElem
  sorted := by
    rw [setElem_mgidAt hmgid]
    exact h.sorted
  tree g' := (h.tree g').trans (setElem_indexed hphase).symm
  grp g' y hy := by
    rcases setElem_cases hy with ⟨rfl, z, hz, rfl⟩ | ⟨hne, hy⟩
    · cases hx.symm.trans hz
      rw [Function.update_self]
      exact hf
    · rw [Function.update_of_ne hne]
      exact h.grp g' y hy
  gone g' hg' := by
    by_cases hne : g' = g
    · rw [hne, setElem_same, hx] at hg'
      cases hg'
    · rw [setElem_of_ne hne] at hg'
      rw [Function.update_of_ne hne]
      exact h.gone g' hg'

theorem GrpsInv.getKey (h : GrpsInv max held p) (mgid : ℕ) :
    (∃ g, p.Indexed g ∧ mgidAt p g = mgid ∧ rxePoolGetKey p mgid = (some g, rxeAddRef p g)) ∨
      (∀ g, p.Indexed g → mgidAt p g ≠ mgid) ∧ rxePoolGetKey p mgid = (none, p) := by
  unfold rxePoolGetKey
  rw [if_neg (not_not.2 h.alloc.valid)]
  cases hfind : find (mgidAt p) mgid p.tree with
  | some g =>
    obtain ⟨hmem, hkey⟩ := (find_eq_some h.sorted).1 hfind
    exact Or.inl ⟨g, (h.tree g).1 hmem, hkey, rfl⟩
  | none =>
    refine Or.inr ⟨fun g hin hkey => ?_, rfl⟩
    exact (find_eq_none h.sorted).1 hfind g ((h.tree g).2 hin) hkey

theorem GrpsInv.addRef (h : GrpsInv max held p) (hin : p.Indexed g) :
    GrpsInv max (Function.update held g (held g + 1)) (rxeAddRef p g) := by
  obtain ⟨x, hx, hphase⟩ := hin
  have hg := h.grp g x hx
  refine h.setElem (fun _ => rfl) (fun _ => rfl) hx ⟨?_, hg.num, ?_, hg.empty, hg.limit⟩
  · show x.refCnt + 1 = x.obj.qpList.length + (held g + 1)
    rw [hg.refs]
    omega
  · intro hfresh
    cases hphase.symm.trans hfresh

theorem GrpsInv.dropRef (h : GrpsInv max held p) (hheld : 0 < held g) :
    GrpsInv max (Function.update held g (held g - 1)) (rxeDropRef p g) := by
  cases hx : p.elem g with
  | none => exact absurd (h.gone g hx) hheld.ne'
  | some x =>
    have hg := h.grp g x hx
    refine h.setElem (fun _ => rfl) (fun _ => rfl) hx ⟨?_, hg.num, ?_, hg.empty, hg.limit⟩
    · show x.refCnt - 1 = x.obj.qpList.length + (held g - 1)
      rw [hg.refs]
      omega
    · intro hfresh
      exact (Nat.sub_le _ _).trans (hg.fresh hfresh)

theorem GrpsInv.new (h : GrpsInv max held p) (hfree : g ∉ p.slab) :
    GrpsInv max (Function.update held g 1)
      { p with refCnt := p.refCnt + 1, numElem := p.numElem + 1, slab := insert g p.slab
               elem := Function.update p.elem g (some { obj := {} }) } := by
  have hnone := h.alloc.elem_eq_none hfree
  have hkey : ∀ g', p.Indexed g' → g' ≠ g := by
    rintro g' ⟨x, hx, -⟩ rfl
    rw [hnone] at hx
    cases hx
  -- the new object is not in the tree before `rxe_add_key`
  have hindexed : ∀ g', Pool.Indexed { p with
      refCnt := p.refCnt + 1, numElem := p.numElem + 1, slab := insert g p.slab
      elem := Function.update p.elem g (some { obj := {} }) } g' ↔ p.Indexed g' := by
    intro g'
    unfold Pool.Indexed
    dsimp only
    by_cases hne : g' = g
    · subst hne
      rw [Function.update_self, hnone]
      simp
    · rw [Function.update_of_ne hne]
  refine ⟨h.alloc.alloc hfree {}, ?_, fun g' => (h.tree g').trans (hindexed g').symm, ?_, ?_⟩
  · refine h.sorted.congr fun g' hg' => ?_
    have hne := hkey g' ((h.tree g').1 hg')
    unfold mgidAt
    dsimp only
    rw [Function.update_of_ne hne]
  · intro g' y hy
    by_cases hne : g' = g
    · subst hne
      cases (Function.update_self ..).symm.trans hy
      rw [Function.update_self]
      exact ⟨rfl, rfl, fun _ => le_rfl, fun _ => rfl, fun hno => absurd rfl hno⟩
    · rw [Function.update_of_ne hne]
      exact h.grp g' y ((Function.update_of_ne hne ..).symm.trans hy)
  · intro g' hg'
    by_cases hne : g' = g
    · subst hne
      cases (Function.update_self ..).symm.trans hg'
    · rw [Function.update_of_ne hne]
      exact h.gone g' ((Function.update_of_ne hne ..).symm.trans hg')

theorem rxeAddKey_eq (rot : BinaryTree ℕ → BinaryTree ℕ) (h : GrpsInv max held p)
    (hx : p.elem g = some x) (hphase : x.phase ≠ .indexed)
    (hnew : ∀ g', p.Indexed g' → mgidAt p g' ≠ mgid) : let f : Elem McGrp → Elem McGrp := fun x =>
      { x with phase := .indexed, obj := { x.obj with mgid } }
    rxeAddKey rot p g mgid =
      { p with tree := rot (link (mgidAt (p.setElem g f)) g p.tree) }.setElem g f := by
  intro f
  have hout : ∀ g' ∈ inorder p.tree, g' ≠ g := fun g' hin =>
    ne_of_indexed hx hphase ((h.tree g').1 hin)
  -- the key is written before the search, and no node of the tree is this group
  have hkey : ∀ g' ∈ inorder p.tree,
      mgidAt (p.onGrp g fun grp => { grp with mgid }) g' = mgidAt p g' := by
    intro g' hin
    unfold mgidAt Pool.onGrp
    rw [setElem_of_ne (hout g' hin)]
  have hfind : find (mgidAt (p.onGrp g fun grp => { grp with mgid })) mgid p.tree = none := by
    refine (find_eq_none (h.sorted.congr hkey)).2 fun g' hin => ?_
    rw [hkey g' hin]
    exact hnew g' ((h.tree g').1 hin)
  -- the phase, set after the insertion, is not part of a key
  have hmgid : mgidAt (p.onGrp g fun grp => { grp with mgid }) = mgidAt (p.setElem g f) := by
    funext g'
    unfold mgidAt Pool.onGrp
    by_cases hne : g' = g
    · rw [hne, setElem_same, setElem_same]
      cases p.elem g <;> rfl
    · rw [setElem_of_ne hne, setElem_of_ne hne]
  unfold rxeAddKey
  dsimp only
  have htree : (p.onGrp g fun grp => { grp with mgid }).tree = p.tree := rfl
  rw [htree, hfind]
  rw [hmgid]
  exact setElem_setElem { p with tree := rot (link (mgidAt (p.setElem g f)) g p.tree) } g _ _

theorem GrpsInv.setElem_grp (h : GrpsInv max held p)
    (hx : p.elem g = some x) (hnew : GrpInv max (held g) (f x)) (g' : ℕ) (y : Elem McGrp)
    (hy : (p.setElem g f).elem g' = some y) : GrpInv max (held g') y := by
  rcases setElem_cases hy with ⟨rfl, z, hz, rfl⟩ | ⟨-, hy⟩
  · cases hx.symm.trans hz
    exact hnew
  · exact h.grp g' y hy

theorem GrpsInv.setElem_gone (h : GrpsInv max held p) (g' : ℕ)
    (hg' : (p.setElem g f).elem g' = none) : held g' = 0 := by
  refine h.gone g' (Option.isSome_eq_false_iff.1 ?_ |> Option.isNone_iff_eq_none.1)
  rw [← setElem_isSome (e := g) (f := f), hg']
  rfl

theorem GrpsInv.addKey (h : GrpsInv max held p) (hx : p.elem g = some x)
    (hphase : x.phase ≠ .indexed) (hnew : ∀ g', p.Indexed g' → mgidAt p g' ≠ mgid)
    (hrot : Rebalances rot) : GrpsInv max held (rxeAddKey rot p g mgid) := by
  have hg := h.grp g x hx
  rw [rxeAddKey_eq rot h hx hphase hnew]
  set f : Elem McGrp → Elem McGrp := fun x =>
    { x with phase := .indexed, obj := { x.obj with mgid } } with hf
  have hself : (p.setElem g f).elem g = some (f x) := setElem_self hx
  have hout : ∀ g' ∈ inorder p.tree, g' ≠ g := fun g' hin =>
    ne_of_indexed hx hphase ((h.tree g').1 hin)
  have hkey : ∀ g' ∈ inorder p.tree, mgidAt (p.setElem g f) g' = mgidAt p g' := by
    intro g' hin
    unfold mgidAt
    rw [setElem_of_ne (hout g' hin)]
  -- no key is equal to the new one, so the insertion gives a search tree
  have hother : ∀ g' ∈ inorder p.tree, mgidAt (p.setElem g f) g' ≠ mgidAt (p.setElem g f) g := by
    intro g' hin
    rw [hkey g' hin, mgidAt_of_elem hself]
    exact hnew g' ((h.tree g').1 hin)
  refine ⟨(h.alloc.setTree _).setElem, ?_, fun g' => ?_, ?_, ?_⟩
  · exact (link_sorted (h.sorted.congr hkey) hother).rebalance hrot
  · show g' ∈ inorder (rot (link (mgidAt (p.setElem g f)) g p.tree)) ↔ (p.setElem g f).Indexed g'
    rw [hrot, mem_link hother, h.tree]
    unfold Pool.Indexed
    by_cases hne : g' = g
    · rw [hne, hself]
      simp [hf]
    · rw [setElem_of_ne hne]
      simp [hne]
  · exact h.setElem_grp hx ⟨hg.refs, hg.num, nofun, fun hno => absurd rfl hno, hg.limit⟩
  · exact h.setElem_gone

theorem GrpsInv.dropKey (h : GrpsInv max held p) (hx : p.elem g = some x) (hzero : x.refCnt = 0)
    (hphase : x.phase = .indexed ∨ p.tree = .nil) (hrot : Rebalances rot) :
    GrpsInv max held (rxeDropKey rot p g) := by
  have hg := h.grp g x hx
  have hempty : x.obj.qpList = [] := by
    have hrefs := hg.refs
    exact List.length_eq_zero_iff.1 (by omega)
  set f : Elem McGrp → Elem McGrp := fun x => { x with phase := .dropped } with hf
  have hself : (p.setElem g f).elem g = some (f x) := setElem_self hx
  -- whichever way, the nodes left are those of the other groups
  have htree : Sorted (mgidAt p) (rxeDropKey rot p g).tree ∧
      ∀ g', g' ∈ inorder (rxeDropKey rot p g).tree ↔ g' ≠ g ∧ g' ∈ inorder p.tree := by
    show Sorted (mgidAt p) (if (p.elem g).map Elem.phase = some IndexPhase.indexed then
        rot (erase g p.tree) else .nil) ∧ ∀ g', g' ∈ inorder (if (p.elem g).map Elem.phase =
          some IndexPhase.indexed then rot (erase g p.tree) else .nil) ↔
            g' ≠ g ∧ g' ∈ inorder p.tree
    split
    · refine ⟨(erase_sorted g h.sorted).rebalance hrot, fun g' => ?_⟩
      rw [hrot, mem_erase h.sorted]
    · next hno =>
      rw [hx, Option.map_some, Option.some_inj] at hno
      rw [hphase.resolve_left hno]
      exact ⟨sorted_nil, fun g' => by simp [inorder]⟩
  refine ⟨(h.alloc.setTree _).setElem, ?_, fun g' => ?_, ?_, ?_⟩
  · have hkey : mgidAt (rxeDropKey rot p g) = mgidAt p :=
      setElem_mgidAt (p := p) (f := f) fun _ => rfl
    rw [hkey]
    exact htree.1
  · show _ ↔ (p.setElem g f).Indexed g'
    rw [htree.2, h.tree]
    unfold Pool.Indexed
    by_cases hne : g' = g
    · rw [hne, hself]
      simp [hf]
    · rw [setElem_of_ne hne]
      simp [hne]
  · exact h.setElem_grp hx ⟨hg.refs, hg.num, by rintro ⟨⟩, fun _ => hempty, hg.limit⟩
  · exact h.setElem_gone

theorem GrpsInv.release (h : GrpsInv max held p) (hx : p.elem g = some x) (hzero : x.refCnt = 0)
    (hphase : x.phase ≠ .indexed) : GrpsInv max held (rxeElemRelease p g) := by
  -- a freed group that were in the tree would leave a dangling node
  have hout : ∀ g', p.Indexed g' → g' ≠ g := fun _ => ne_of_indexed hx hphase
  have hother : ∀ g' ≠ g, (rxeElemRelease p g).elem g' = p.elem g' := fun _ hne =>
    Function.update_of_ne hne ..
  have hheld : held g = 0 := by
    have hrefs := (h.grp g x hx).refs
    omega
  refine ⟨h.alloc.release hx, ?_, fun g' => ?_, ?_, ?_⟩
  · refine h.sorted.congr fun g' hin => ?_
    unfold mgidAt
    rw [hother g' (hout g' ((h.tree g').1 hin))]
  · refine (h.tree g').trans ?_
    by_cases hne : g' = g
    · refine ⟨fun hin => absurd hne (hout g' hin), fun ⟨y, hy, _⟩ => ?_⟩
      rw [hne] at hy
      cases (Function.update_self ..).symm.trans hy
    · exact (indexed_of_ne hother hne).symm
  · intro g' y hy
    rcases elem_cases hother hy with ⟨-, hy⟩ | ⟨-, hy⟩
    · cases (Function.update_self ..).symm.trans hy
    · exact h.grp g' y hy
  · intro g' hg'
    by_cases hne : g' = g
    · rw [hne]
      exact hheld
    · exact h.gone g' ((hother g' hne).symm.trans hg')

end Groups

/-! ### The lists -/

/-- The two lists of an element agree with what the element says. -/
structure LinkInv (elems : Pool McElem) (qpList grpList : ℕ → List ℕ) : Prop where
  alloc : Allocated elems
  one : ∀ a y, elems.elem a = some y → y.refCnt = 1
  onGrp : ∀ g a, a ∈ qpList g ↔ ∃ y, elems.elem a = some y ∧ y.obj.grp = g ∧ y.obj.link ≠ .off
  onQp : ∀ qp a, a ∈ grpList qp ↔ ∃ y, elems.elem a = some y ∧ y.obj.qp = qp ∧ y.obj.link = .both
  grpNodup : ∀ g, (qpList g).Nodup
  qpNodup : ∀ qp, (grpList qp).Nodup
  once : ∀ a b y z, elems.elem a = some y → elems.elem b = some z → y.obj.link ≠ .off →
    z.obj.link ≠ .off → y.obj.qp = z.obj.qp → y.obj.grp = z.obj.grp → a = b

section Lists

variable {elems elems' : Pool McElem} {qpList grpList qpList' grpList' : ℕ → List ℕ}
  {qp g a : ℕ} {y : Elem McElem}

theorem LinkInv.change (h : LinkInv elems qpList grpList) (halloc : Allocated elems')
    (hother : ∀ b, b ≠ a → elems'.elem b = elems.elem b)
    (hone : ∀ y, elems'.elem a = some y → y.refCnt = 1)
    (hgrp : ∀ g b, b ≠ a → (b ∈ qpList' g ↔ b ∈ qpList g))
    (hqp : ∀ qp b, b ≠ a → (b ∈ grpList' qp ↔ b ∈ grpList qp))
    (hgrpA : ∀ g, a ∈ qpList' g ↔
      ∃ y, elems'.elem a = some y ∧ y.obj.grp = g ∧ y.obj.link ≠ .off)
    (hqpA : ∀ qp, a ∈ grpList' qp ↔
      ∃ y, elems'.elem a = some y ∧ y.obj.qp = qp ∧ y.obj.link = .both)
    (hgrpNodup : ∀ g, (qpList' g).Nodup) (hqpNodup : ∀ qp, (grpList' qp).Nodup)
    (honce : ∀ y, elems'.elem a = some y → y.obj.link ≠ .off → ∀ b z, b ≠ a →
      elems.elem b = some z → z.obj.link ≠ .off → y.obj.qp = z.obj.qp → y.obj.grp ≠ z.obj.grp) :
    LinkInv elems' qpList' grpList' where
  alloc := halloc
  one b z hz := by
    by_cases hne : b = a
    · subst hne
      exact hone z hz
    · rw [hother b hne] at hz
      exact h.one b z hz
  onGrp g b := by
    by_cases hne : b = a
    · subst hne
      exact hgrpA g
    · rw [hother b hne]
      exact (hgrp g b hne).trans (h.onGrp g b)
  onQp qp b := by
    by_cases hne : b = a
    · subst hne
      exact hqpA qp
    · rw [hother b hne]
      exact (hqp qp b hne).trans (h.onQp qp b)
  grpNodup := hgrpNodup
  qpNodup := hqpNodup
  once b c z w hz hw hzl hwl hqp' hgrp' := by
    -- of two elements for one QP and group, one must be the one that changed
    by_cases hb : b = a <;> by_cases hc : c = a
    · exact hb.trans hc.symm
    · subst hb
      rw [hother c hc] at hw
      exact absurd hgrp' (honce z hz hzl c w hc hw hwl hqp')
    · subst hc
      rw [hother b hb] at hz
      exact absurd hgrp'.symm (honce w hw hwl b z hb hz hzl hqp'.symm)
    · rw [hother b hb] at hz
      rw [hother c hc] at hw
      exact h.once b c z w hz hw hzl hwl hqp' hgrp'

theorem mem_update_cons {k k' b : ℕ} :
    b ∈ Function.update lists k (a :: lists k) k' ↔ b ∈ lists k' ∨ b = a ∧ k' = k := by
  by_cases hk : k' = k
  · subst hk
    rw [Function.update_self, List.mem_cons]
    tauto
  · rw [Function.update_of_ne hk]
    tauto

theorem mem_update_erase (hnodup : ∀ k, (lists k).Nodup) {k k' b : ℕ} :
    b ∈ Function.update lists k ((lists k).erase a) k' ↔ b ∈ lists k' ∧ ¬ (b = a ∧ k' = k) := by
  by_cases hk : k' = k
  · subst hk
    rw [Function.update_self, (hnodup k').mem_erase_iff]
    tauto
  · rw [Function.update_of_ne hk]
    tauto

theorem nodup_update (hnodup : ∀ k, (lists k).Nodup) {k : ℕ} {l : List ℕ}
    (hl : l.Nodup) (k' : ℕ) : (Function.update lists k l k').Nodup := by
  by_cases hk : k' = k
  · subst hk
    rwa [Function.update_self]
  · rw [Function.update_of_ne hk]
    exact hnodup k'

theorem LinkInv.join (h : LinkInv elems qpList grpList) (halloc : Allocated elems')
    (hnone : elems.elem a = none)
    (helem : elems'.elem = Function.update elems.elem a (some { obj := ⟨qp, g, .both⟩ }))
    (hnew : ∀ b ∈ qpList g, qpAt elems b ≠ some qp) :
    LinkInv elems' (Function.update qpList g (a :: qpList g))
      (Function.update grpList qp (a :: grpList qp)) := by
  -- the address was free, so no list can hold it
  have hgrp : ∀ g, a ∉ qpList g := fun g hmem => by
    obtain ⟨y, hy, -⟩ := (h.onGrp g a).1 hmem
    rw [hnone] at hy
    cases hy
  have hqp : ∀ qp, a ∉ grpList qp := fun qp hmem => by
    obtain ⟨y, hy, -⟩ := (h.onQp qp a).1 hmem
    rw [hnone] at hy
    cases hy
  have hself : elems'.elem a = some { obj := ⟨qp, g, .both⟩ } := by
    rw [helem, Function.update_self]
  refine h.change (a := a) halloc ?_ ?_ ?_ ?_ ?_ ?_ ?_ ?_ ?_
  · intro b hne
    rw [helem, Function.update_of_ne hne]
  · intro y hy
    cases hself.symm.trans hy
    rfl
  · intro g' b hne
    rw [mem_update_cons]
    simp [hne]
  · intro qp' b hne
    rw [mem_update_cons]
    simp [hne]
  · intro g'
    rw [mem_update_cons, hself]
    simp [hgrp g', eq_comm]
  · intro qp'
    rw [mem_update_cons, hself]
    simp [hqp qp', eq_comm]
  · exact nodup_update h.grpNodup (List.nodup_cons.2 ⟨hgrp g, h.grpNodup g⟩)
  · exact nodup_update h.qpNodup (List.nodup_cons.2 ⟨hqp qp, h.qpNodup qp⟩)
  -- the search of `rxe_mcast_add_grp_elem` found no element for the QP
  · intro y hy _ b z _ hz hzl hqp' hgrp'
    cases hself.symm.trans hy
    refine hnew b ((h.onGrp g b).2 ⟨z, hz, hgrp'.symm, hzl⟩) ?_
    unfold qpAt
    rw [hz]
    exact congrArg some hqp'.symm

theorem onElem_elem {f : McElem → McElem} (hy : elems.elem a = some y) :
    (elems.onElem a f).elem a = some { y with obj := f y.obj } :=
  setElem_self hy

theorem LinkInv.leaveQp (h : LinkInv elems qpList grpList) (hy : elems.elem a = some y)
    (hqp : y.obj.qp = qp) (hlink : y.obj.link = .both) :
    LinkInv (elems.onElem a fun e => { e with link := .grp }) qpList
      (Function.update grpList qp ((grpList qp).erase a)) := by
  have hself := onElem_elem (f := fun e => { e with link := .grp }) hy
  -- the element was on one list of each kind, and leaves that of the QP
  have hon : ∀ g, a ∈ qpList g ↔ y.obj.grp = g := by
    intro g
    rw [h.onGrp, hy]
    simp [hlink]
  have honQp : ∀ qp', a ∈ grpList qp' ↔ y.obj.qp = qp' := by
    intro qp'
    rw [h.onQp, hy]
    simp [hlink]
  refine h.change (a := a) h.alloc.setElem (fun b hne => setElem_of_ne hne) ?_
    (fun _ _ _ => Iff.rfl) ?_ ?_ ?_ h.grpNodup ?_ ?_
  · intro z hz
    cases hself.symm.trans hz
    exact h.one a y hy
  · intro qp' b hne
    rw [mem_update_erase h.qpNodup]
    simp [hne]
  · intro g
    rw [hon, hself]
    simp
  · intro qp'
    rw [mem_update_erase h.qpNodup, hself, honQp, hqp]
    simp [eq_comm]
  · exact nodup_update h.qpNodup ((h.qpNodup qp).erase a)
  · intro z hz _ b w hne hw hwl hqp' hgrp'
    cases hself.symm.trans hz
    have hlinked : y.obj.link ≠ .off := by rw [hlink]; decide
    exact hne (h.once a b y w hy hw hlinked hwl hqp' hgrp').symm

theorem LinkInv.leaveGrp (h : LinkInv elems qpList grpList) (hy : elems.elem a = some y)
    (hgrp : y.obj.grp = g) (hlink : y.obj.link = .grp) :
    LinkInv (elems.onElem a fun e => { e with link := .off })
      (Function.update qpList g ((qpList g).erase a)) grpList := by
  have hself := onElem_elem (f := fun e => { e with link := .off }) hy
  have hon : ∀ g', a ∈ qpList g' ↔ y.obj.grp = g' := by
    intro g'
    rw [h.onGrp, hy]
    simp [hlink]
  -- the list of the QP was left before that of the group
  have honQp : ∀ qp', a ∉ grpList qp' := by
    intro qp'
    rw [h.onQp, hy]
    simp [hlink]
  refine h.change (a := a) h.alloc.setElem (fun b hne => setElem_of_ne hne) ?_ ?_
    (fun _ _ _ => Iff.rfl) ?_ ?_ ?_ h.qpNodup ?_
  · intro z hz
    cases hself.symm.trans hz
    exact h.one a y hy
  · intro g' b hne
    rw [mem_update_erase h.grpNodup]
    simp [hne]
  · intro g'
    rw [mem_update_erase h.grpNodup, hself, hon, hgrp]
    simp [eq_comm]
  · intro qp'
    rw [hself]
    simp [honQp qp']
  · exact nodup_update h.grpNodup ((h.grpNodup g).erase a)
  · intro z hz hzl
    cases hself.symm.trans hz
    exact absurd rfl hzl

theorem LinkInv.putElem (h : LinkInv elems qpList grpList) (hy : elems.elem a = some y)
    (hlink : y.obj.link = .off) : LinkInv (putElem elems a) qpList grpList ∧
      (Rxe.putElem elems a).elem = Function.update elems.elem a none := by
  -- the reference dropped is the only one, so the element is freed
  have hdrop : (rxeDropRef elems a).elem a = some { y with refCnt := 0 } := by
    unfold rxeDropRef
    rw [setElem_same, hy, Option.map_some, h.one a y hy]
  have hput : Rxe.putElem elems a = rxeElemRelease (rxeDropRef elems a) a := by
    unfold Rxe.putElem krefPut
    dsimp only
    rw [hdrop]
    rfl
  have helem : (Rxe.putElem elems a).elem = Function.update elems.elem a none := by
    rw [hput]
    exact Function.update_idem ..
  have hself : (Rxe.putElem elems a).elem a = none := by
    rw [helem, Function.update_self]
  have hon : ∀ g, a ∉ qpList g := by
    intro g
    rw [h.onGrp, hy]
    simp [hlink]
  have honQp : ∀ qp, a ∉ grpList qp := by
    intro qp
    rw [h.onQp, hy]
    simp [hlink]
  refine ⟨h.change (a := a) ?_ ?_ ?_ (fun _ _ _ => Iff.rfl) (fun _ _ _ => Iff.rfl) ?_ ?_ h.grpNodup
    h.qpNodup ?_, helem⟩
  · rw [hput]
    exact h.alloc.setElem.release hdrop
  · intro b hne
    rw [helem, Function.update_of_ne hne]
  · rw [hself]
    exact nofun
  · intro g
    rw [hself]
    simp [hon g]
  · intro qp
    rw [hself]
    simp [honQp qp]
  · rw [hself]
    exact nofun

end Lists

/-! ### Joining and leaving -/

section Sections

variable {s : McSys} {held : ℕ → ℕ} {qp g a : ℕ} {x : Elem McGrp} {y : Elem McElem}

theorem onGrp_qpListAt {f : McGrp → McGrp} (hx : p.elem g = some x) :
    qpListAt (p.onGrp g f) = Function.update (qpListAt p) g (f x.obj).qpList := by
  funext g'
  by_cases hne : g' = g
  · subst hne
    unfold qpListAt Pool.onGrp
    rw [Function.update_self, setElem_same, hx]
    rfl
  · rw [Function.update_of_ne hne]
    unfold qpListAt Pool.onGrp
    rw [setElem_of_ne hne]

theorem rxeAddRef_qpListAt (p : Pool McGrp) (g : ℕ) : qpListAt (rxeAddRef p g) = qpListAt p :=
  setElem_qpListAt fun _ => rfl

theorem rxeDropRef_qpListAt (p : Pool McGrp) (g : ℕ) : qpListAt (rxeDropRef p g) = qpListAt p :=
  setElem_qpListAt fun _ => rfl

theorem rxeAddRef_mgidAt (p : Pool McGrp) (g : ℕ) : mgidAt (rxeAddRef p g) = mgidAt p :=
  setElem_mgidAt fun _ => rfl

theorem rxeDropRef_mgidAt (p : Pool McGrp) (g : ℕ) : mgidAt (rxeDropRef p g) = mgidAt p :=
  setElem_mgidAt fun _ => rfl

theorem rxeMcastAddGrpElem_cases (s : McSys) (qp g : ℕ) (addr : Option ℕ) :
    ((∃ a ∈ qpListAt s.grps g, qpAt s.elems a = some qp) ∧
        rxeMcastAddGrpElem s qp g addr = (.ok (), s)) ∨
      (∀ a ∈ qpListAt s.grps g, qpAt s.elems a ≠ some qp) ∧
        (rxeMcastAddGrpElem s qp g addr = (.error .nomem, s) ∨
          ∃ a, addr = some a ∧ numQpAt s.grps g < s.maxAttach ∧
            rxeMcastAddGrpElem s qp g addr = (.ok (), joinGrp { s with elems :=
              { s.elems with
                refCnt := s.elems.refCnt + 1, numElem := s.elems.numElem + 1
                slab := insert a s.elems.slab
                elem := Function.update s.elems.elem a (some { obj := {} }) } } qp g a)) := by
  unfold rxeMcastAddGrpElem
  split
  · next hmem =>
    refine Or.inl ⟨?_, rfl⟩
    simpa using hmem
  · next hmem =>
    refine Or.inr ⟨by simpa using hmem, ?_⟩
    split
    · exact Or.inl rfl
    · next hlimit =>
      rcases rxeAlloc_cases s.elems addr {} with heq | ⟨a, haddr, heq⟩
      · rw [heq]
        exact Or.inl rfl
      · rw [heq]
        exact Or.inr ⟨a, haddr, not_le.1 hlimit, rfl⟩

theorem joinGrp_inv (hgrps : GrpsInv s.maxAttach held s.grps)
    (hlinks : LinkInv s.elems (qpListAt s.grps) s.grpList) (hin : s.grps.Indexed g)
    (hfree : a ∉ s.elems.slab) (hlimit : numQpAt s.grps g < s.maxAttach)
    (hnew : ∀ b ∈ qpListAt s.grps g, qpAt s.elems b ≠ some qp) :
    let s' := joinGrp { s with elems := { s.elems with
      refCnt := s.elems.refCnt + 1, numElem := s.elems.numElem + 1, slab := insert a s.elems.slab
      elem := Function.update s.elems.elem a (some { obj := {} }) } } qp g a
    GrpsInv s'.maxAttach held s'.grps ∧ LinkInv s'.elems (qpListAt s'.grps) s'.grpList ∧
      qpListAt s'.grps = Function.update (qpListAt s.grps) g (a :: qpListAt s.grps g) ∧
      s'.elems.elem = Function.update s.elems.elem a (some { obj := ⟨qp, g, .both⟩ }) := by
  intro s'
  obtain ⟨x, hx, hphase⟩ := hin
  have hg := hgrps.grp g x hx
  have hnum : numQpAt s.grps g = x.obj.numQp := by
    unfold numQpAt
    rw [hx]
    rfl
  have hnone := hlinks.alloc.elem_eq_none hfree
  have hadd : (rxeAddRef s.grps g).elem g = some { x with refCnt := x.refCnt + 1 } :=
    setElem_self hx
  have hlist : qpListAt s'.grps = Function.update (qpListAt s.grps) g (a :: qpListAt s.grps g) := by
    rw [qpListAt_of_elem hx, ← rxeAddRef_qpListAt s.grps g]
    have hjoin := onGrp_qpListAt (f := fun grp =>
      { grp with numQp := grp.numQp + 1, qpList := a :: grp.qpList }) hadd
    exact hjoin
  have helem : s'.elems.elem = Function.update s.elems.elem a (some { obj := ⟨qp, g, .both⟩ }) := by
    show Function.update (Function.update s.elems.elem a (some { obj := {} })) a
      (Option.map _ (Function.update s.elems.elem a (some { obj := {} }) a)) = _
    rw [Function.update_idem, Function.update_self]
    rfl
  refine ⟨?_, ?_, hlist, helem⟩
  -- the reference taken is the one that the new element accounts for
  · have hcomp : s'.grps = s.grps.setElem g fun x => { x with
        refCnt := x.refCnt + 1
        obj := { x.obj with numQp := x.obj.numQp + 1, qpList := a :: x.obj.qpList } } :=
      setElem_setElem ..
    rw [hcomp, ← Function.update_eq_self g held]
    refine hgrps.setElem (fun _ => rfl) (fun _ => rfl) hx ⟨?_, ?_, ?_, ?_, ?_⟩
    · show x.refCnt + 1 = (a :: x.obj.qpList).length + held g
      rw [hg.refs, List.length_cons]
      omega
    · show x.obj.numQp + 1 = ((a :: x.obj.qpList).length : ℕ)
      rw [hg.num, List.length_cons]
      push_cast
      rfl
    · exact fun hfresh => nomatch hphase.symm.trans hfresh
    · exact fun hno => absurd hphase hno
    · intro _
      show x.obj.numQp + 1 ≤ s.maxAttach
      omega
  · rw [hlist]
    exact hlinks.join ((hlinks.alloc.alloc hfree {}).setElem) hnone helem hnew

theorem joinGrp_mgidAt (s : McSys) (qp g a : ℕ) :
    mgidAt (joinGrp s qp g a).grps = mgidAt s.grps := by
  rw [← rxeAddRef_mgidAt s.grps g]
  exact setElem_mgidAt fun _ => rfl

theorem unlinkElem_cases (s : McSys) (qp g : ℕ) :
    ((∀ a ∈ qpListAt s.grps g, qpAt s.elems a ≠ some qp) ∧ unlinkElem s qp g = (none, s)) ∨
      ∃ a ∈ qpListAt s.grps g, qpAt s.elems a = some qp ∧
        unlinkElem s qp g = (some a, leaveGrp (leaveQp s qp a) g a) := by
  unfold unlinkElem
  cases hfind : (qpListAt s.grps g).find? (qpAt s.elems · = some qp) with
  | none =>
    refine Or.inl ⟨?_, rfl⟩
    simpa using hfind
  | some a =>
    exact Or.inr ⟨a, List.mem_of_find?_eq_some hfind, by simpa using List.find?_some hfind, rfl⟩

theorem GrpsInv.leave {max : ℤ} (h : GrpsInv max held p)
    (hmem : a ∈ qpListAt p g) :
    let p' := p.onGrp g fun grp =>
      { grp with numQp := grp.numQp - 1, qpList := grp.qpList.erase a }
    GrpsInv max (Function.update held g (held g + 1)) p' ∧
      qpListAt p' = Function.update (qpListAt p) g ((qpListAt p g).erase a) := by
  intro p'
  cases hx : p.elem g with
  | none =>
    unfold qpListAt at hmem
    rw [hx] at hmem
    cases hmem
  | some x =>
    have hlist := qpListAt_of_elem hx
    rw [hlist] at hmem ⊢
    have hg := h.grp g x hx
    -- the reference of the element that leaves is handed to the caller
    have hlen : (x.obj.qpList.erase a).length = x.obj.qpList.length - 1 :=
      List.length_erase_of_mem hmem
    have hpos : 0 < x.obj.qpList.length := List.length_pos_of_mem hmem
    refine ⟨h.setElem (fun _ => rfl) (fun _ => rfl) hx ⟨?_, ?_, hg.fresh, ?_, ?_⟩,
      onGrp_qpListAt hx⟩
    · show x.refCnt = (x.obj.qpList.erase a).length + (held g + 1)
      rw [hg.refs, hlen]
      omega
    · show x.obj.numQp - 1 = ((x.obj.qpList.erase a).length : ℕ)
      rw [hg.num, hlen]
      omega
    · intro hno
      show x.obj.qpList.erase a = []
      rw [hg.empty hno]
      rfl
    · intro _
      show x.obj.numQp - 1 ≤ max
      have := hg.limit (List.ne_nil_of_mem hmem)
      omega

end Sections

/-! ### Calls run one after the other -/

/-- Every group has its key and a reference. -/
def AllKeyed (p : Pool McGrp) : Prop :=
  ∀ g x, p.elem g = some x → x.phase = .indexed ∧ x.refCnt ≠ 0

/-- The QP is attached to the group in the tree with the MGID. -/
def Member (s : McSys) (qp mgid : ℕ) : Prop :=
  ∃ g ∈ inorder s.grps.tree, mgidAt s.grps g = mgid ∧
    ∃ a ∈ qpListAt s.grps g, qpAt s.elems a = some qp

/-- What holds between calls. -/
structure McInv (s : McSys) : Prop where
  grps : GrpsInv s.maxAttach (fun _ => 0) s.grps
  links : LinkInv s.elems (qpListAt s.grps) s.grpList
  settled : AllKeyed s.grps
  both : ∀ a y, s.elems.elem a = some y → y.obj.link = .both

section Calls

variable {s s' : McSys} {max : ℤ} {held : ℕ → ℕ} {p : Pool McGrp} {qp mgid g a : ℕ}
  {x : Elem McGrp} {rot : BinaryTree ℕ → BinaryTree ℕ}

theorem AllKeyed.setElem (h : AllKeyed p)
    (hf : ∀ x, x.refCnt ≠ 0 → (f x).phase = x.phase ∧ (f x).refCnt ≠ 0) :
    AllKeyed (p.setElem g f) := by
  intro g' y hy
  rcases setElem_cases hy with ⟨-, z, hz, rfl⟩ | ⟨-, hy⟩
  · obtain ⟨hphase, hrefs⟩ := h g z hz
    obtain ⟨hsame, hrefs'⟩ := hf z hrefs
    exact ⟨hsame.trans hphase, hrefs'⟩
  · exact h g' y hy

theorem AllKeyed.addRef (h : AllKeyed p) (g : ℕ) : AllKeyed (rxeAddRef p g) :=
  h.setElem fun _ _ => ⟨rfl, Nat.succ_ne_zero _⟩

theorem mcInit_inv (h : McInit s) : McInv s := by
  obtain ⟨⟨_, hgrps⟩, ⟨_, helems⟩, hlists⟩ := h
  have hnone : ∀ g, s.grps.elem g = none := by
    rw [hgrps]
    exact fun _ => rfl
  have hnone' : ∀ a, s.elems.elem a = none := by
    rw [helems]
    exact fun _ => rfl
  have hlist : ∀ g, qpListAt s.grps g = [] := by
    intro g
    unfold qpListAt
    rw [hnone]
    rfl
  refine ⟨⟨?_, ?_, ?_, ?_, fun _ _ => rfl⟩, ⟨?_, ?_, ?_, ?_, ?_, ?_, ?_⟩, ?_, ?_⟩
  · rw [hgrps]
    exact ⟨rfl, rfl, fun e => by simp⟩
  · rw [hgrps]
    exact sorted_nil
  · intro g
    unfold Pool.Indexed
    rw [hnone, hgrps]
    simp [inorder]
  · intro g x hx
    rw [hnone] at hx
    cases hx
  · rw [helems]
    exact ⟨rfl, rfl, fun e => by simp⟩
  · intro a y hy
    rw [hnone'] at hy
    cases hy
  · intro g a
    rw [hlist, hnone']
    simp
  · intro qp a
    rw [hlists, hnone']
    simp
  · intro g
    rw [hlist]
    exact List.nodup_nil
  · intro qp
    rw [hlists]
    exact List.nodup_nil
  · intro a b y z hy
    rw [hnone'] at hy
    cases hy
  · intro g x hx
    rw [hnone] at hx
    cases hx
  · intro a y hy
    rw [hnone'] at hy
    cases hy

theorem GrpsInv.indexed_of_mem (h : GrpsInv max held p) (hmem : a ∈ qpListAt p g) :
    p.Indexed g := by
  cases hx : p.elem g with
  | none =>
    unfold qpListAt at hmem
    rw [hx] at hmem
    cases hmem
  | some x =>
    refine ⟨x, hx, ?_⟩
    by_contra hno
    rw [qpListAt_of_elem hx, (h.grp g x hx).empty hno] at hmem
    cases hmem

theorem member_iff (h : GrpsInv max held s.grps) : Member s qp mgid ↔
    ∃ g, mgidAt s.grps g = mgid ∧ ∃ a ∈ qpListAt s.grps g, qpAt s.elems a = some qp := by
  constructor
  · rintro ⟨g, -, hg⟩
    exact ⟨g, hg⟩
  · rintro ⟨g, hmgid, a, hmem, hqp⟩
    exact ⟨g, (h.tree g).2 (h.indexed_of_mem hmem), hmgid, a, hmem, hqp⟩

/-- A reference is dropped: the lists of the groups stay, and so do the MGIDs of those that have
members. -/
theorem GrpsInv.put (h : GrpsInv max held p) (hset : AllKeyed p) (hheld : 0 < held g)
    (hrot : Rebalances rot) :
    GrpsInv max (Function.update held g (held g - 1)) (putGrp rot p g) ∧ AllKeyed (putGrp rot p g) ∧
      qpListAt (putGrp rot p g) = qpListAt p ∧
      ∀ g', qpListAt p g' ≠ [] → mgidAt (putGrp rot p g) g' = mgidAt p g' := by
  have hdrop := h.dropRef hheld
  cases hx : p.elem g with
  | none => exact absurd (h.gone g hx) hheld.ne'
  | some x =>
    have hself : (rxeDropRef p g).elem g = some { x with refCnt := x.refCnt - 1 } := setElem_self hx
    have hother : ∀ g', g' ≠ g → (rxeDropRef p g).elem g' = p.elem g' := fun g' hne =>
      setElem_of_ne hne
    unfold putGrp krefPut
    dsimp only
    rw [hself]
    split
    · next hzero =>
      -- the last reference: the group leaves the tree and is freed, and it had no members
      have hzero' : x.refCnt - 1 = 0 := by simpa using hzero
      have hkey := hdrop.dropKey hself hzero' (Or.inl (hset g x hx).1) hrot
      have hself' : (rxeDropKey rot (rxeDropRef p g) g).elem g =
          some { x with refCnt := x.refCnt - 1, phase := .dropped } :=
        setElem_self hself
      have helem : ∀ g', g' ≠ g →
          (rxeElemRelease (rxeDropKey rot (rxeDropRef p g) g) g).elem g' = p.elem g' := by
        intro g' hne
        refine (Function.update_of_ne hne ..).trans ?_
        exact (Function.update_of_ne hne ..).trans (hother g' hne)
      have hgone : (rxeElemRelease (rxeDropKey rot (rxeDropRef p g) g) g).elem g = none :=
        Function.update_self ..
      have hempty : x.obj.qpList = [] := (hkey.grp g _ hself').empty nofun
      refine ⟨hkey.release hself' hzero' nofun, ?_, ?_, ?_⟩
      · intro g' y hy
        rcases elem_cases helem hy with ⟨-, hy⟩ | ⟨-, hy⟩
        · cases hgone.symm.trans hy
        · exact hset g' y hy
      · funext g'
        unfold qpListAt
        by_cases hne : g' = g
        · rw [hne, hgone, hx]
          exact hempty.symm
        · rw [helem g' hne]
      · intro g' hlist
        have hne : g' ≠ g := by
          rintro rfl
          rw [qpListAt_of_elem hx] at hlist
          exact hlist hempty
        unfold mgidAt
        rw [helem g' hne]
    · next hzero =>
      -- the group stays, with a reference for each member
      have hzero' : x.refCnt - 1 ≠ 0 := by simpa using hzero
      refine ⟨hdrop, ?_, rxeDropRef_qpListAt p g, fun g' _ => ?_⟩
      · intro g' y hy
        rcases elem_cases hother hy with ⟨-, hy⟩ | ⟨-, hy⟩
        · cases hself.symm.trans hy
          exact ⟨(hset g x hx).1, hzero'⟩
        · exact hset g' y hy
      · rw [rxeDropRef_mgidAt]

/-- What `rxe_mcast_get_grp` returns: the group with the MGID, with one reference more. -/
theorem GrpsInv.getGrp (h : GrpsInv s.maxAttach (fun _ => 0) s.grps) (hset : AllKeyed s.grps)
    (hrot : Rebalances rot) {addr : Option ℕ} (haddr : ∀ g ∈ addr, g ∉ s.grps.slab) :
    (∃ err, rxeMcastGetGrp rot s mgid addr true = (.error err, s) ∧
        ∀ g, mgidAt s.grps g = mgid → qpListAt s.grps g = []) ∨
      ∃ g grps, rxeMcastGetGrp rot s mgid addr true = (.ok g, { s with grps }) ∧
        GrpsInv s.maxAttach (Function.update (fun _ => 0) g 1) grps ∧ AllKeyed grps ∧
        grps.Indexed g ∧ mgidAt grps g = mgid ∧ qpListAt grps = qpListAt s.grps ∧
        ∀ g', qpListAt s.grps g' ≠ [] → mgidAt grps g' = mgidAt s.grps g' := by
  unfold rxeMcastGetGrp
  split
  · next hmax =>
    -- a group with a member would have more of them than the limit
    refine Or.inl ⟨_, rfl, fun g _ => ?_⟩
    by_contra hlist
    obtain ⟨a, ha⟩ := List.exists_mem_of_ne_nil _ hlist
    obtain ⟨x, hx, -⟩ := h.indexed_of_mem ha
    have hg := h.grp g x hx
    rw [qpListAt_of_elem hx] at hlist
    have hlimit := hg.limit hlist
    have hpos := List.length_pos_of_ne_nil hlist
    rw [hg.num, hmax] at hlimit
    omega
  · rcases h.getKey mgid with ⟨g, hin, hmgid, hget⟩ | ⟨hno, hget⟩
    · rw [hget]
      refine Or.inr ⟨g, _, rfl, h.addRef hin, ?_, ?_, ?_, rxeAddRef_qpListAt s.grps g, ?_⟩
      · exact hset.addRef g
      · refine Iff.mpr ?_ hin
        exact setElem_indexed fun _ => rfl
      · rw [rxeAddRef_mgidAt]
        exact hmgid
      · intro g' _
        rw [rxeAddRef_mgidAt]
    · rw [hget]
      dsimp only
      rcases rxeAlloc_cases s.grps addr {} with heq | ⟨g, hsome, heq⟩
      · rw [heq]
        refine Or.inl ⟨_, rfl, fun g hmgid => ?_⟩
        by_contra hlist
        obtain ⟨a, ha⟩ := List.exists_mem_of_ne_nil _ hlist
        exact hno g (h.indexed_of_mem ha) hmgid
      · have hfree := haddr g hsome
        have hnone := h.alloc.elem_eq_none hfree
        have hnew := h.new hfree
        rw [heq]
        set p : Pool McGrp := { s.grps with
          refCnt := s.grps.refCnt + 1, numElem := s.grps.numElem + 1, slab := insert g s.grps.slab
          elem := Function.update s.grps.elem g (some { obj := {} }) } with hp
        have hself : p.elem g = some { obj := {} } := Function.update_self ..
        have hother : ∀ g', g' ≠ g → p.elem g' = s.grps.elem g' := fun g' hne =>
          Function.update_of_ne hne ..
        have hnotkey : ∀ g', p.Indexed g' → mgidAt p g' ≠ mgid := by
          intro g' hin
          have hne := ne_of_indexed hself nofun hin
          unfold mgidAt
          rw [hother g' hne]
          exact hno g' ((indexed_of_ne hother hne).1 hin)
        have hkey := hnew.addKey hself nofun hnotkey hrot
        have heqKey := rxeAddKey_eq rot hnew hself nofun hnotkey
        have hself' : (rxeAddKey rot p g mgid).elem g =
            some { phase := .indexed, obj := { mgid } } := by
          rw [heqKey]
          exact setElem_self hself
        have hother' : ∀ g', g' ≠ g → (rxeAddKey rot p g mgid).elem g' = s.grps.elem g' := by
          intro g' hne
          rw [heqKey, setElem_of_ne hne]
          exact hother g' hne
        refine Or.inr ⟨g, _, rfl, hkey, ?_, ⟨_, hself', rfl⟩, ?_, ?_, ?_⟩
        · intro g' y hy
          rcases elem_cases hother' hy with ⟨-, hy⟩ | ⟨-, hy⟩
          · cases hself'.symm.trans hy
            exact ⟨rfl, Nat.one_ne_zero⟩
          · exact hset g' y hy
        · exact mgidAt_of_elem hself'
        · funext g'
          by_cases hne : g' = g
          · subst hne
            rw [qpListAt_of_elem hself']
            unfold qpListAt
            rw [hnone]
            rfl
          · unfold qpListAt
            rw [hother' g' hne]
        · intro g' hlist
          have hne : g' ≠ g := by
            rintro rfl
            unfold qpListAt at hlist
            rw [hnone] at hlist
            exact hlist rfl
          unfold mgidAt
          rw [hother' g' hne]

theorem GrpsInv.mgid_inj (h : GrpsInv max held p) {g' : ℕ} (hin : p.Indexed g)
    (hin' : p.Indexed g') (hmgid : mgidAt p g = mgidAt p g') : g = g' :=
  h.sorted.key_inj ((h.tree g).2 hin) ((h.tree g').2 hin') hmgid

theorem update_zero (g : ℕ) : Function.update (Function.update (fun _ => 0 : ℕ → ℕ) g 1) g 0 =
    fun _ => 0 := by
  rw [Function.update_idem]
  exact Function.update_eq_self ..

theorem McInv.finish (hgrps : GrpsInv s.maxAttach (Function.update (fun _ => 0) g 1) s.grps)
    (hset : AllKeyed s.grps) (hlinks : LinkInv s.elems (qpListAt s.grps) s.grpList)
    (hboth : ∀ a y, s.elems.elem a = some y → y.obj.link = .both) (hrot : Rebalances rot) :
    McInv { s with grps := putGrp rot s.grps g } ∧
      ∀ qp mgid, Member { s with grps := putGrp rot s.grps g } qp mgid ↔
        ∃ g', mgidAt s.grps g' = mgid ∧ ∃ a ∈ qpListAt s.grps g', qpAt s.elems a = some qp := by
  have hheld : 0 < Function.update (fun _ => 0 : ℕ → ℕ) g 1 g := by
    rw [Function.update_self]
    exact Nat.one_pos
  obtain ⟨hput, hset', hlist, hmgid⟩ := hgrps.put hset hheld hrot
  rw [Function.update_self, update_zero] at hput
  refine ⟨⟨hput, ?_, hset', hboth⟩, fun qp mgid => ?_⟩
  · rw [hlist]
    exact hlinks
  · rw [member_iff hput]
    -- a group with a member survived the put, so its MGID is the same
    rw [hlist]
    refine exists_congr fun g' => and_congr_left fun hmem => ?_
    obtain ⟨a, ha, -⟩ := hmem
    rw [hmgid g' (List.ne_nil_of_mem ha)]

theorem McInv.attach (h : McInv s) (hrot : Rebalances rot) {gaddr eaddr : Option ℕ}
    (hgaddr : ∀ g ∈ gaddr, g ∉ s.grps.slab) (headdr : ∀ a ∈ eaddr, a ∉ s.elems.slab) :
    McInv (rxeAttachMcast rot s qp mgid gaddr eaddr true).2 ∧
      ((rxeAttachMcast rot s qp mgid gaddr eaddr true).1 = .ok () ↔
        Member (rxeAttachMcast rot s qp mgid gaddr eaddr true).2 qp mgid) := by
  unfold rxeAttachMcast
  rcases h.grps.getGrp h.settled hrot hgaddr with
    ⟨err, heq, hno⟩ | ⟨g, grps, heq, hgrps, hset, hin, hmgid, hlist, -⟩
  -- without a group of this MGID no QP can be a member
  · rw [heq]
    refine ⟨h, nofun, fun hmember => ?_⟩
    obtain ⟨g, hg, a, ha, -⟩ := (member_iff h.grps).1 hmember
    rw [hno g hg] at ha
    cases ha
  · rw [heq]
    dsimp only
    have hlinks : LinkInv s.elems (qpListAt grps) s.grpList := by
      rw [hlist]
      exact h.links
    rcases rxeMcastAddGrpElem_cases { s with grps } qp g eaddr with
      ⟨⟨a, ha, hqp⟩, hadd⟩ | ⟨hnew, hadd | ⟨a, hsome, hlimit, hadd⟩⟩
    -- the QP was a member already, and nothing changes
    · rw [hadd]
      obtain ⟨hinv, hmember⟩ := McInv.finish (s := { s with grps }) hgrps hset hlinks h.both hrot
      exact ⟨hinv, fun _ => (hmember qp mgid).2 ⟨g, hmgid, a, ha, hqp⟩, fun _ => rfl⟩
    -- the limit is reached or no memory is left: the QP is no member
    · rw [hadd]
      obtain ⟨hinv, hmember⟩ := McInv.finish (s := { s with grps }) hgrps hset hlinks h.both hrot
      refine ⟨hinv, nofun, fun hm => ?_⟩
      obtain ⟨g', hmgid', a, ha, hqp⟩ := (hmember qp mgid).1 hm
      obtain rfl := hgrps.mgid_inj (hgrps.indexed_of_mem ha) hin (hmgid'.trans hmgid.symm)
      exact absurd hqp (hnew a ha)
    -- the QP joins
    · rw [hadd]
      obtain ⟨hgrps', hlinks', hlist', helem⟩ :=
        joinGrp_inv (s := { s with grps }) hgrps hlinks hin (headdr a hsome) hlimit hnew
      generalize hs' : joinGrp _ qp g a = s' at hgrps' hlinks' hlist' helem ⊢
      have hset' : AllKeyed s'.grps := by
        rw [← hs']
        exact (hset.addRef g).setElem fun _ hrefs => ⟨rfl, hrefs⟩
      have hboth' : ∀ b z, s'.elems.elem b = some z → z.obj.link = .both := by
        intro b z hz
        rw [helem] at hz
        by_cases hne : b = a
        · subst hne
          cases (Function.update_self ..).symm.trans hz
          rfl
        · rw [Function.update_of_ne hne] at hz
          exact h.both b z hz
      have hmgid' : mgidAt s'.grps = mgidAt grps := by
        rw [← hs']
        exact joinGrp_mgidAt _ qp g a
      obtain ⟨hinv, hmember⟩ := McInv.finish hgrps' hset' hlinks' hboth' hrot
      refine ⟨hinv, fun _ => (hmember qp mgid).2 ⟨g, ?_, a, ?_, ?_⟩, fun _ => rfl⟩
      · rw [hmgid']
        exact hmgid
      · rw [hlist', Function.update_self]
        exact List.mem_cons_self
      · unfold qpAt
        rw [helem, Function.update_self]
        rfl

theorem leave_inv {y : Elem McElem} (hgrps : GrpsInv s.maxAttach held s.grps)
    (hset : AllKeyed s.grps) (hlinks : LinkInv s.elems (qpListAt s.grps) s.grpList)
    (hboth : ∀ a y, s.elems.elem a = some y → y.obj.link = .both) (hy : s.elems.elem a = some y)
    (hqp : y.obj.qp = qp) (hgrp : y.obj.grp = g) :
    let s' := leaveGrp (leaveQp s qp a) g a
    GrpsInv s.maxAttach (Function.update held g (held g + 1)) s'.grps ∧ AllKeyed s'.grps ∧
      LinkInv (putElem s'.elems a) (qpListAt s'.grps) s'.grpList ∧
      ∀ b z, (putElem s'.elems a).elem b = some z → z.obj.link = .both := by
  intro s'
  have hlink := hboth a y hy
  have hmem : a ∈ qpListAt s.grps g :=
    (hlinks.onGrp g a).2 ⟨y, hy, hgrp, by rw [hlink]; decide⟩
  obtain ⟨hgrps', hlist⟩ := hgrps.leave hmem
  -- off the list of the QP, off that of the group, then freed
  have hleft := (hlinks.leaveQp hy hqp hlink).leaveGrp (onElem_elem hy) hgrp rfl
  rw [← hlist] at hleft
  obtain ⟨hfreed, helem⟩ := hleft.putElem (onElem_elem (onElem_elem hy)) rfl
  refine ⟨hgrps', hset.setElem fun _ hrefs => ⟨rfl, hrefs⟩, hfreed, fun b z hz => ?_⟩
  have hz' := (congrFun helem b).symm.trans hz
  have hne : b ≠ a := by
    rintro rfl
    rw [Function.update_self] at hz'
    cases hz'
  rw [Function.update_of_ne hne] at hz'
  have hsame : s'.elems.elem b = s.elems.elem b :=
    (setElem_of_ne hne).trans (setElem_of_ne hne)
  exact hboth b z (hsame.symm.trans hz')

theorem McInv.detach (h : McInv s) (hrot : Rebalances rot) :
    McInv (rxeDetachMcast rot s qp mgid).2 ∧
      ((rxeDetachMcast rot s qp mgid).1 = .ok () ↔ Member s qp mgid) := by
  unfold rxeDetachMcast
  rcases h.grps.getKey mgid with ⟨g, hin, hmgid, hget⟩ | ⟨hno, hget⟩
  · rw [hget]
    dsimp only
    have hgrps := h.grps.addRef hin
    have hset := h.settled.addRef g
    have hlist := rxeAddRef_qpListAt s.grps g
    have hlinks : LinkInv s.elems (qpListAt (rxeAddRef s.grps g)) s.grpList := by
      rw [hlist]
      exact h.links
    rcases unlinkElem_cases { s with grps := rxeAddRef s.grps g } qp g with
      ⟨hnew, heq⟩ | ⟨a, ha, hqp, heq⟩
    · rw [heq]
      refine ⟨(McInv.finish (s := { s with grps := rxeAddRef s.grps g }) hgrps hset hlinks h.both
        hrot).1, nofun, fun hm => ?_⟩
      obtain ⟨g', hmgid', a, ha, hqp⟩ := (member_iff h.grps).1 hm
      obtain rfl := h.grps.mgid_inj (h.grps.indexed_of_mem ha) hin (hmgid'.trans hmgid.symm)
      rw [← hlist] at ha
      exact absurd hqp (hnew a ha)
    · obtain ⟨y, hy, hgrp, -⟩ := (hlinks.onGrp g a).1 ha
      have hqp' : y.obj.qp = qp := by
        unfold qpAt at hqp
        rw [hy] at hqp
        exact Option.some.inj hqp
      obtain ⟨hgrps', hset', hlinks', hboth'⟩ :=
        leave_inv (s := { s with grps := rxeAddRef s.grps g }) hgrps hset hlinks h.both hy hqp' hgrp
      rw [heq]
      generalize hs' : leaveGrp (leaveQp { s with grps := rxeAddRef s.grps g } qp a) g a = s'
        at hgrps' hset' hlinks' hboth' ⊢
      have hmax : s.maxAttach = s'.maxAttach := by
        rw [← hs']
        rfl
      rw [hmax, Function.update_idem] at hgrps'
      -- two references go, that of the element and that of the lookup
      have hheld : 0 < Function.update (fun _ => 0 : ℕ → ℕ) g
          (Function.update (fun _ => 0 : ℕ → ℕ) g (0 + 1) g + 1) g := by
        rw [Function.update_self]
        exact Nat.succ_pos _
      obtain ⟨hput, hsetPut, hlistPut, -⟩ := hgrps'.put hset' hheld hrot
      rw [Function.update_self, Function.update_self, Function.update_idem] at hput
      refine ⟨?_, fun _ => (member_iff h.grps).2 ⟨g, hmgid, a, ?_, hqp⟩, fun _ => rfl⟩
      · refine (McInv.finish (s := { s' with elems := putElem s'.elems a
                                             grps := putGrp rot s'.grps g }) hput hsetPut ?_ hboth'
          hrot).1
        rw [hlistPut]
        exact hlinks'
      · rw [← hlist]
        exact ha
  · rw [hget]
    refine ⟨h, nofun, fun hm => ?_⟩
    obtain ⟨g, hmgid, a, ha, -⟩ := (member_iff h.grps).1 hm
    exact absurd hmgid (hno g (h.grps.indexed_of_mem ha))

theorem McInv.pass (h : McInv s) (hrot : Rebalances rot) (hpass : dropPass rot qp s = .inl s') :
    McInv s' ∧ (s'.grpList qp).length < (s.grpList qp).length := by
  unfold dropPass at hpass
  split at hpass
  · cases hpass
  · next a rest hcons =>
    have ha : a ∈ s.grpList qp := by
      rw [hcons]
      exact List.mem_cons_self
    obtain ⟨y, hy, hqp, -⟩ := (h.links.onQp qp a).1 ha
    -- the pass takes the head of the list of the QP, and the measure is its length
    have hgrp : y.obj.grp = grpAt s.elems a := by
      unfold grpAt
      rw [hy]
      rfl
    obtain ⟨hgrps', hset', hlinks', hboth'⟩ :=
      leave_inv h.grps h.settled h.links h.both hy hqp hgrp
    cases hpass
    refine ⟨?_, ?_⟩
    · exact (McInv.finish (s := { leaveGrp (leaveQp s qp a) (grpAt s.elems a) a with
        elems := putElem (leaveGrp (leaveQp s qp a) (grpAt s.elems a) a).elems a })
        hgrps' hset' hlinks' hboth' hrot).1
    · show (Function.update s.grpList qp ((s.grpList qp).erase a) qp).length < _
      rw [Function.update_self, List.length_erase_of_mem ha]
      exact Nat.sub_lt (List.length_pos_of_mem ha) Nat.one_pos

theorem McInv.cleanup (h : McInv s) (hrot : Rebalances rot) (qp : ℕ) :
    ∃ s', rxeDropAllMcastGroups rot s qp = some s' ∧ McInv s' ∧ s'.grpList qp = [] := by
  have hsome : (rxeDropAllMcastGroups rot s qp).isSome :=
    Loop.run_isSome (I := McInv) (fun s => (s.grpList qp).length)
      (fun _ _ h hpass => h.pass hrot hpass) h (Nat.lt_succ_self _)
  obtain ⟨s', hs'⟩ := Option.isSome_iff_exists.1 hsome
  refine ⟨s', hs', ?_⟩
  refine Loop.run_inv (I := McInv) (Q := fun s' => McInv s' ∧ s'.grpList qp = [])
    (fun _ _ h hpass => (h.pass hrot hpass).1) (fun s r h hexit => ?_) h hs'
  unfold dropPass at hexit
  split at hexit
  · next hnil =>
    cases hexit
    exact ⟨h, hnil⟩
  · cases hexit

theorem McInv.step {call : McCall} (h : McInv s) (hok : McOk s call)
    (hstep : mcStep s call = some s') : McInv s' := by
  cases call with
  | attach rot qp mgid gaddr eaddr added =>
    obtain ⟨hrot, hgaddr, headdr, rfl⟩ := hok
    cases hstep
    exact (h.attach hrot hgaddr headdr).1
  | detach rot qp mgid =>
    cases hstep
    exact (h.detach hok).1
  | cleanup rot qp =>
    obtain ⟨s'', hs'', hinv, -⟩ := h.cleanup hok qp
    cases hs''.symm.trans hstep
    exact hinv

end Calls

/-- The groups, their members and the lists of the QPs agree. -/
structure Agrees (s : McSys) : Prop where
  tree : ∀ g, g ∈ inorder s.grps.tree ↔ qpListAt s.grps g ≠ []
  live : ∀ g, (s.grps.elem g).isSome → g ∈ inorder s.grps.tree
  counts : ∀ g x, s.grps.elem g = some x →
    x.refCnt = x.obj.qpList.length ∧ x.obj.numQp = x.obj.qpList.length
  once : ∀ g, ((qpListAt s.grps g).map (qpAt s.elems)).Nodup
  limit : ∀ g x, s.grps.elem g = some x → x.obj.numQp ≤ s.maxAttach
  lists : ∀ a y, s.elems.elem a = some y →
    a ∈ qpListAt s.grps y.obj.grp ∧ a ∈ s.grpList y.obj.qp
  onGrp : ∀ g, ∀ a ∈ qpListAt s.grps g, ∃ y, s.elems.elem a = some y ∧ y.obj.grp = g
  onQp : ∀ qp, ∀ a ∈ s.grpList qp, ∃ y, s.elems.elem a = some y ∧ y.obj.qp = qp

theorem McInv.agrees {s : McSys} (h : McInv s) : Agrees s := by
  have hcounts : ∀ g x, s.grps.elem g = some x →
      x.refCnt = x.obj.qpList.length ∧ x.obj.numQp = x.obj.qpList.length := fun g x hx =>
    ⟨(h.grps.grp g x hx).refs, (h.grps.grp g x hx).num⟩
  -- a group is kept alive by its members only
  have hmembers : ∀ g x, s.grps.elem g = some x → x.obj.qpList ≠ [] := by
    intro g x hx hnil
    have hrefs := (hcounts g x hx).1
    rw [hnil] at hrefs
    exact (h.settled g x hx).2 hrefs
  have hindexed : ∀ g, (s.grps.elem g).isSome → s.grps.Indexed g := by
    intro g hsome
    obtain ⟨x, hx⟩ := Option.isSome_iff_exists.1 hsome
    exact ⟨x, hx, (h.settled g x hx).1⟩
  refine ⟨fun g => ?_, fun g hsome => (h.grps.tree g).2 (hindexed g hsome), hcounts, fun g => ?_,
    fun g x hx => (h.grps.grp g x hx).limit (hmembers g x hx), fun a y hy => ?_, fun g a ha => ?_,
    fun qp a ha => ?_⟩
  · rw [h.grps.tree]
    constructor
    · rintro ⟨x, hx, -⟩
      rw [qpListAt_of_elem hx]
      exact hmembers g x hx
    · intro hlist
      obtain ⟨a, ha⟩ := List.exists_mem_of_ne_nil _ hlist
      exact h.grps.indexed_of_mem ha
  · refine List.Nodup.map_on (fun a ha b hb heq => ?_) (h.links.grpNodup g)
    obtain ⟨y, hy, hgrp, hlink⟩ := (h.links.onGrp g a).1 ha
    obtain ⟨z, hz, hgrp', hlink'⟩ := (h.links.onGrp g b).1 hb
    unfold qpAt at heq
    rw [hy, hz] at heq
    exact h.links.once a b y z hy hz hlink hlink' (Option.some.inj heq) (hgrp.trans hgrp'.symm)
  · have hlink := h.both a y hy
    exact ⟨(h.links.onGrp _ a).2 ⟨y, hy, rfl, by rw [hlink]; decide⟩,
      (h.links.onQp _ a).2 ⟨y, hy, rfl, hlink⟩⟩
  · obtain ⟨y, hy, hgrp, -⟩ := (h.links.onGrp g a).1 ha
    exact ⟨y, hy, hgrp⟩
  · obtain ⟨y, hy, hqp, -⟩ := (h.links.onQp qp a).1 ha
    exact ⟨y, hy, hqp⟩

open Trace in
/-- Whatever calls were made before, one after the other: the groups, their members and the
lists agree; a call that attaches returns 0 exactly if the QP is a member afterwards, and one
that detaches exactly if it was a member before; the cleanup of a QP ends. -/
theorem mcast_membership (s₀ s : McSys) (hinit : McInit s₀) (hreach : Reach mcStep McOk s₀ s) :
    Agrees s ∧
    (∀ rot qp mgid gaddr eaddr added, McOk s (.attach rot qp mgid gaddr eaddr added) →
      ((rxeAttachMcast rot s qp mgid gaddr eaddr added).1 = .ok () ↔
        Member (rxeAttachMcast rot s qp mgid gaddr eaddr added).2 qp mgid)) ∧
    (∀ rot qp mgid, McOk s (.detach rot qp mgid) →
      ((rxeDetachMcast rot s qp mgid).1 = .ok () ↔ Member s qp mgid)) ∧
    ∀ rot qp, McOk s (.cleanup rot qp) →
      ∃ s', rxeDropAllMcastGroups rot s qp = some s' ∧ s'.grpList qp = [] := by
  have h : McInv s :=
    Reach.inv (mcInit_inv hinit) (fun _ _ _ h hok hstep => h.step hok hstep) hreach
  refine ⟨h.agrees, ?_, fun rot qp mgid hrot => (h.detach hrot).2, fun rot qp hrot => ?_⟩
  · rintro rot qp mgid gaddr eaddr added ⟨hrot, hgaddr, headdr, rfl⟩
    exact (h.attach hrot hgaddr headdr).2
  · obtain ⟨s', hs', -, hnil⟩ := h.cleanup hrot qp
    exact ⟨s', hs', hnil⟩

/-- A device on which two QPs can be attached to a group. -/
def twoMembers : McSys where
  maxAttach := 2
  grps := { maxElem := 4, minIndex := 0, maxIndex := 0 }
  elems := { maxElem := 4, minIndex := 0, maxIndex := 0 }

open Trace in
/-- Two QPs attach to the group with the MGID 7, and are members then. -/
theorem mcast_membership_two : ∃ s₁ s₂,
    mcStep twoMembers (.attach id 16 7 (some 100) (some 200) true) = some s₁ ∧
      mcStep s₁ (.attach id 17 7 none (some 201) true) = some s₂ ∧ Agrees s₂ ∧
      Member s₂ 17 7 ∧ Member s₂ 16 7 := by
  have hinit : McInit twoMembers := ⟨⟨4, rfl⟩, ⟨4, rfl⟩, rfl⟩
  obtain ⟨s₁, hs₁, hok₁, hok₂, hattach, hdetach⟩ : ∃ s₁,
      mcStep twoMembers (.attach id 16 7 (some 100) (some 200) true) = some s₁ ∧
      McOk twoMembers (.attach id 16 7 (some 100) (some 200) true) ∧
      McOk s₁ (.attach id 17 7 none (some 201) true) ∧
      (rxeAttachMcast id s₁ 17 7 none (some 201) true).1 = .ok () ∧
      (rxeDetachMcast id (rxeAttachMcast id s₁ 17 7 none (some 201) true).2 16 7).1 = .ok () :=
    ⟨_, rfl, ⟨rebalances_id, by decide, by decide, rfl⟩, ⟨rebalances_id, nofun, by decide, rfl⟩,
      by decide, by decide⟩
  have hreach := Reach.next .start hok₁ hs₁
  obtain ⟨-, hmember, -⟩ := mcast_membership twoMembers s₁ hinit hreach
  obtain ⟨hagrees, -, hdetached, -⟩ := mcast_membership twoMembers _ hinit (hreach.next hok₂ rfl)
  exact ⟨s₁, _, hs₁, rfl, hagrees, (hmember id 17 7 none _ true hok₂).1 hattach,
    (hdetached id 16 7 rebalances_id).1 hdetach⟩

/-! ### A group that the interface does not add -/

/-- The addresses for which a call of `rxe_attach_mcast` whose `mcast_add` fails calls
`mcast_delete`, in `rxe_mc_cleanup`. -/
def attachDeletes (s : McSys) (mgid : ℕ) (addr : Option ℕ) : List ℕ :=
  match rxePoolGetKey s.grps mgid with
  | (some _, _) => []
  | (none, grps) =>
    match rxeAlloc grps addr {} with
    | (none, _) => []
    | (some g, grps) =>
      if ((rxeDropRef grps g).elem g).any (·.refCnt = 0) then [mgidAt grps g] else []

/-- The addresses for which a call has `mcast_add` of the interface called. -/
def attachAdds (s : McSys) (mgid : ℕ) (addr : Option ℕ) : List ℕ :=
  if s.maxAttach = 0 then []
  else
    match rxePoolGetKey s.grps mgid with
    | (some _, _) => []
    | (none, grps) => if (rxeAlloc grps addr {}).1.isSome then [mgid] else []

/-- A call, with the addresses that have been added to the interface so far. -/
def mcAddStep (k : McSys × List ℕ) (a : McCall) : Option (McSys × List ℕ) :=
  (mcStep k.1 a).map fun s => (s, k.2 ++
    match a with
    | .attach _ _ mgid gaddr _ true => attachAdds k.1 mgid gaddr
    | _ => [])

/-- Nothing is left of a call: the tree is a search tree with the same groups, only addresses
that had been added were deleted, and every reference is released. -/
structure RolledBack (added : List ℕ) (s s' : McSys) (deleted : List ℕ) : Prop where
  sorted : Sorted (mgidAt s'.grps) s'.grps.tree
  groups : inorder s'.grps.tree = inorder s.grps.tree
  deletes : ∀ a ∈ deleted, a ∈ added
  refs : s'.grps.elem = s.grps.elem ∧ s'.grps.slab = s.grps.slab ∧
    s'.grps.refCnt = s.grps.refCnt ∧ s'.grps.numElem = s.grps.numElem

/-- The node of the new group was never linked, so its release empties the tree; its MGID was
never set. -/
theorem attach_failed {s : McSys} (h : McInv s) {gaddr : Option ℕ} (qp : ℕ) (eaddr : Option ℕ)
    (hfree : ∀ g ∈ gaddr, g ∉ s.grps.slab)
    (hfail : (rxeMcastGetGrp rot s mgid gaddr false).1 = .error .failed) :
    (rxeAttachMcast rot s qp mgid gaddr eaddr false).2 =
        { s with grps := { s.grps with tree := .nil } } ∧
      attachDeletes s mgid gaddr = [0] := by
  unfold rxeAttachMcast attachDeletes
  unfold rxeMcastGetGrp at hfail ⊢
  split at hfail
  · cases hfail
  · next hmax =>
    rw [if_neg hmax]
    rcases h.grps.getKey mgid with ⟨g, -, -, hget⟩ | ⟨-, hget⟩
    · rw [hget] at hfail
      cases hfail
    · rw [hget] at hfail ⊢
      dsimp only at hfail ⊢
      rcases rxeAlloc_cases s.grps gaddr {} with heq | ⟨g, rfl, heq⟩
      · rw [heq] at hfail
        cases hfail
      · rw [heq]
        have hslab : g ∉ s.grps.slab := hfree g rfl
        have hnone := h.grps.alloc.elem_eq_none hslab
        have hrefs : s.grps.refCnt ≠ 0 := by
          rw [h.grps.alloc.refs]
          omega
        simp [putGrp, krefPut, rxeDropRef, rxeDropKey, rxeElemRelease, poolPut,
          Pool.setElem, mgidAt, Finset.erase_insert hslab, hrefs, ← hnone]

theorem rolledBack_iff {s : McSys} (h : McInv s) (added : List ℕ) {gaddr : Option ℕ} (qp : ℕ)
    (eaddr : Option ℕ) (hfree : ∀ g ∈ gaddr, g ∉ s.grps.slab)
    (hfail : (rxeMcastGetGrp rot s mgid gaddr false).1 = .error .failed) :
    RolledBack added s (rxeAttachMcast rot s qp mgid gaddr eaddr false).2
        (attachDeletes s mgid gaddr) ↔ s.grps.tree = .nil ∧ 0 ∈ added := by
  obtain ⟨hafter, hdeletes⟩ := attach_failed h qp eaddr hfree hfail
  rw [hafter, hdeletes]
  constructor
  · intro hback
    refine ⟨?_, hback.deletes 0 List.mem_cons_self⟩
    cases htree : s.grps.tree with
    | nil => rfl
    | node g l r =>
      have hnil := hback.groups.symm
      rw [htree] at hnil
      cases (List.append_eq_nil_iff.1 hnil).2
  · rintro ⟨htree, hadded⟩
    refine ⟨List.Pairwise.nil, ?_, ?_, rfl, rfl, rfl, rfl⟩
    · rw [htree]
    · rintro a ha
      rwa [List.mem_singleton.1 ha]

open Trace in
/-- An attach whose `mcast_add` fails leaves nothing behind exactly if there are no groups, and
the address 0 had been added. -/
theorem mcast_add_failure_iff (s₀ : McSys) (k : McSys × List ℕ) (hinit : McInit s₀)
    (hreach : Reach mcAddStep (fun k => McOk k.1) (s₀, []) k) (rot : BinaryTree ℕ → BinaryTree ℕ)
    (qp mgid : ℕ) (gaddr eaddr : Option ℕ) (hfree : ∀ g ∈ gaddr, g ∉ k.1.grps.slab)
    (hfail : (rxeMcastGetGrp rot k.1 mgid gaddr false).1 = .error .failed) :
    RolledBack k.2 k.1 (rxeAttachMcast rot k.1 qp mgid gaddr eaddr false).2
        (attachDeletes k.1 mgid gaddr) ↔ k.1.grps.tree = .nil ∧ 0 ∈ k.2 := by
  have h : McInv k.1 := by
    refine Reach.inv (I := fun k => McInv k.1) (mcInit_inv hinit)
      (fun k a k' h hok hstep => ?_) hreach
    obtain ⟨s, hs, rfl⟩ := Option.map_eq_some_iff.1 hstep
    exact h.step hok hs
  exact rolledBack_iff h k.2 qp eaddr hfree hfail

open Trace in
/-- A QP was attached to the group with the MGID 0 and is detached again; there are no groups
then, and the tree has nothing to lose. -/
theorem mcast_add_failure_harmless : ∃ k,
    Reach mcAddStep (fun k => McOk k.1) (twoMembers, []) k ∧ k.2 = [0] ∧
      RolledBack k.2 k.1 (rxeAttachMcast id k.1 17 9 (some 101) (some 201) false).2
        (attachDeletes k.1 9 (some 101)) := by
  obtain ⟨k, hsteps, hadded, htree, hfree, hfail⟩ : ∃ k, Steps mcAddStep (fun k => McOk k.1)
      [.attach id 16 0 (some 100) (some 200) true, .detach id 16 0] (twoMembers, []) k ∧
      k.2 = [0] ∧ k.1.grps.tree = .nil ∧ (∀ g ∈ some 101, g ∉ k.1.grps.slab) ∧
      (rxeMcastGetGrp id k.1 9 (some 101) false).1 = .error .failed :=
    ⟨_, ⟨⟨rebalances_id, by decide, by decide, rfl⟩, _, rfl, rebalances_id, _, rfl, rfl⟩, rfl, rfl,
      by decide, rfl⟩
  have hreach := hsteps.reach .start
  refine ⟨k, hreach, hadded, ?_⟩
  refine (mcast_add_failure_iff twoMembers k ⟨⟨4, rfl⟩, ⟨4, rfl⟩, rfl⟩ hreach id 17 9 _ _ hfree
    hfail).2 ⟨htree, ?_⟩
  rw [hadded]
  exact List.mem_singleton.2 rfl

/-- QP 16 is a member of the group 7; the attach of QP 17 to the group 9 fails, and then QP 16
cannot be detached any more. -/
theorem mcast_add_failure_empties :
    let s := (rxeAttachMcast id twoMembers 16 7 (some 100) (some 200) true).2
    let s' := (rxeAttachMcast id s 17 9 (some 101) (some 201) false).2
    inorder s.grps.tree = [100] ∧ s'.grps.tree = .nil ∧ attachDeletes s 9 (some 101) = [0] ∧
      (rxeDetachMcast id s 16 7).1 = .ok () ∧ (rxeDetachMcast id s' 16 7).1 = .error .inval := by
  decide

end Rxe
