/-
Binary search trees whose nodes are compared by a key.

A search tree is any binary tree whose nodes, read from left to right, have increasing keys
(`Sorted`).  Rotations change the shape of a tree and not this sequence (`Rebalances`), so
nothing below depends on how a tree is balanced.

* `find_eq_some` — the walk down the tree finds the node with the key, if there is one;
* `mem_link`, `link_sorted` — a new leaf linked where the walk for its key ends;
* `inorder_erase`, `erase_sorted` — a node taken out.
-/
import Mathlib.Data.List.Pairwise
import Mathlib.Data.List.Nodup
import Mathlib.Data.Tree.Basic
import Mathlib.Order.Lattice
import Mathlib.Tactic.Common

namespace SearchTree

variable {α K : Type*} [LinearOrder K] {key : α → K} {t : BinaryTree α}

/-- The nodes from left to right. -/
def inorder : BinaryTree α → List α
  | .nil => []
  | .node a l r => inorder l ++ a :: inorder r

/-- The walk down the tree for a key. -/
def find (key : α → K) (k : K) : BinaryTree α → Option α
  | .nil => none
  | .node a l r =>
    if k < key a then find key k l else if key a < k then find key k r else some a

/-- Link a new leaf where the walk for its key ends; a node with the same key ends it too, and
then nothing is linked. -/
def link (key : α → K) (new : α) : BinaryTree α → BinaryTree α
  | .nil => .node new .nil .nil
  | .node a l r =>
    if key a = key new then .node a l r
    else if key new < key a then .node a (link key new l) r
    else .node a l (link key new r)

/-- The nodes of `l`, then those of `r`. -/
def join : BinaryTree α → BinaryTree α → BinaryTree α
  | .nil, r => r
  | .node a l₁ l₂, r => .node a l₁ (join l₂ r)

/-- Take a node out. -/
def erase [DecidableEq α] (x : α) : BinaryTree α → BinaryTree α
  | .nil => .nil
  | .node a l r => if a = x then join l r else .node a (erase x l) (erase x r)

/-- A change of the shape of a tree. -/
def Rebalances (rot : BinaryTree α → BinaryTree α) : Prop := ∀ t, inorder (rot t) = inorder t

theorem rebalances_id : Rebalances (id : BinaryTree α → BinaryTree α) := fun _ => rfl

/-- From left to right the keys increase. -/
def Sorted (key : α → K) (t : BinaryTree α) : Prop :=
  (inorder t).Pairwise fun a b => key a < key b

theorem sorted_nil : Sorted key (.nil : BinaryTree α) := List.Pairwise.nil

theorem sorted_node {a : α} {l r : BinaryTree α} :
    Sorted key (.node a l r) ↔ Sorted key l ∧ Sorted key r ∧ (∀ x ∈ inorder l, key x < key a) ∧
      (∀ x ∈ inorder r, key a < key x) ∧ ∀ x ∈ inorder l, ∀ y ∈ inorder r, key x < key y := by
  unfold Sorted
  rw [inorder, List.pairwise_append, List.pairwise_cons]
  constructor
  · rintro ⟨hl, ⟨hr, hsr⟩, hlr⟩
    exact ⟨hl, hsr, fun x hx => hlr x hx a List.mem_cons_self, hr,
      fun x hx y hy => hlr x hx y (List.mem_cons_of_mem a hy)⟩
  · rintro ⟨hl, hsr, hla, hr, hlr⟩
    refine ⟨hl, ⟨hr, hsr⟩, fun x hx y hy => ?_⟩
    rcases List.mem_cons.1 hy with rfl | hy
    · exact hla x hx
    · exact hlr x hx y hy

theorem mem_inorder_node {a x : α} {l r : BinaryTree α} :
    x ∈ inorder (.node a l r) ↔ x ∈ inorder l ∨ x = a ∨ x ∈ inorder r := by
  rw [inorder, List.mem_append, List.mem_cons]

theorem Sorted.congr {key' : α → K} (h : Sorted key t) (heq : ∀ x ∈ inorder t, key' x = key x) :
    Sorted key' t := by
  refine List.Pairwise.imp_of_mem (fun {a b} ha hb hlt => ?_) h
  rw [heq a ha, heq b hb]
  exact hlt

/-- In a search tree a key determines its node. -/
theorem Sorted.key_inj (h : Sorted key t) {a b : α} (ha : a ∈ inorder t) (hb : b ∈ inorder t)
    (heq : key a = key b) : a = b := by
  by_contra hne
  have hpair : (inorder t).Pairwise fun a b => key a ≠ key b := h.imp fun hlt => hlt.ne
  have : Std.Symm fun a b : α => key a ≠ key b := ⟨fun _ _ hab => hab.symm⟩
  exact hpair.forall ha hb hne heq

theorem Sorted.rebalance {rot : BinaryTree α → BinaryTree α} (h : Sorted key t)
    (hrot : Rebalances rot) : Sorted key (rot t) := by
  unfold Sorted
  rw [hrot]
  exact h

/-- The walk finds the node with the key. -/
theorem find_eq_some (h : Sorted key t) {k : K} {x : α} :
    find key k t = some x ↔ x ∈ inorder t ∧ key x = k := by
  induction t with
  | nil => simp [find, inorder]
  | node a l r ihl ihr =>
    obtain ⟨hl, hr, hla, har, -⟩ := sorted_node.1 h
    rw [mem_inorder_node]
    unfold find
    split
    · next hlt =>
      rw [ihl hl]
      refine ⟨fun ⟨hx, hk⟩ => ⟨Or.inl hx, hk⟩, ?_⟩
      rintro ⟨hx | rfl | hx, rfl⟩
      · exact ⟨hx, rfl⟩
      · exact absurd hlt (lt_irrefl _)
      · exact absurd (hlt.trans (har x hx)) (lt_irrefl _)
    · next hge =>
      split
      · next hlt =>
        rw [ihr hr]
        refine ⟨fun ⟨hx, hk⟩ => ⟨Or.inr (Or.inr hx), hk⟩, ?_⟩
        rintro ⟨hx | rfl | hx, rfl⟩
        · exact absurd (hlt.trans (hla x hx)) (lt_irrefl _)
        · exact absurd hlt (lt_irrefl _)
        · exact ⟨hx, rfl⟩
      · next hle =>
        have hk : key a = k := le_antisymm (not_lt.1 hge) (not_lt.1 hle)
        constructor
        · rintro ⟨⟩
          exact ⟨Or.inr (Or.inl rfl), hk⟩
        · rintro ⟨hx | rfl | hx, hxk⟩
          · exact absurd ((hla x hx).trans_eq (hk.trans hxk.symm)) (lt_irrefl _)
          · rfl
          · exact absurd ((har x hx).trans_eq (hxk.trans hk.symm)) (lt_irrefl _)

theorem find_eq_none (h : Sorted key t) {k : K} :
    find key k t = none ↔ ∀ x ∈ inorder t, key x ≠ k := by
  rw [Option.eq_none_iff_forall_not_mem]
  exact forall_congr' fun x => by rw [Option.mem_def, find_eq_some h, not_and]

/-- A key that no node has is linked. -/
theorem mem_link {new : α} (hnew : ∀ x ∈ inorder t, key x ≠ key new) {x : α} :
    x ∈ inorder (link key new t) ↔ x = new ∨ x ∈ inorder t := by
  induction t with
  | nil => simp [link, inorder]
  | node a l r ihl ihr =>
    have hl := ihl fun x hx => hnew x (mem_inorder_node.2 (Or.inl hx))
    have hr := ihr fun x hx => hnew x (mem_inorder_node.2 (Or.inr (Or.inr hx)))
    unfold link
    rw [if_neg (hnew a (mem_inorder_node.2 (Or.inr (Or.inl rfl))))]
    split
    · rw [mem_inorder_node, mem_inorder_node, hl, or_assoc]
    · rw [mem_inorder_node, mem_inorder_node, hr, ← or_assoc, or_left_comm, or_assoc]

theorem link_sorted {new : α} (h : Sorted key t) (hnew : ∀ x ∈ inorder t, key x ≠ key new) :
    Sorted key (link key new t) := by
  induction t with
  | nil => exact List.pairwise_singleton _ _
  | node a l r ihl ihr =>
    obtain ⟨hl, hr, hla, har, hlr⟩ := sorted_node.1 h
    have hnl : ∀ x ∈ inorder l, key x ≠ key new := fun x hx =>
      hnew x (mem_inorder_node.2 (Or.inl hx))
    have hnr : ∀ x ∈ inorder r, key x ≠ key new := fun x hx =>
      hnew x (mem_inorder_node.2 (Or.inr (Or.inr hx)))
    have hna : key a ≠ key new := hnew a (mem_inorder_node.2 (Or.inr (Or.inl rfl)))
    unfold link
    rw [if_neg hna]
    split
    · next hlt =>
      refine sorted_node.2 ⟨ihl hl hnl, hr, ?_, har, ?_⟩
      · intro x hx
        rcases (mem_link hnl).1 hx with rfl | hx
        · exact hlt
        · exact hla x hx
      · intro x hx y hy
        rcases (mem_link hnl).1 hx with rfl | hx
        · exact hlt.trans (har y hy)
        · exact hlr x hx y hy
    · next hge =>
      have hlt : key a < key new := lt_of_le_of_ne (not_lt.1 hge) hna
      refine sorted_node.2 ⟨hl, ihr hr hnr, hla, ?_, ?_⟩
      · intro y hy
        rcases (mem_link hnr).1 hy with rfl | hy
        · exact hlt
        · exact har y hy
      · intro x hx y hy
        rcases (mem_link hnr).1 hy with rfl | hy
        · exact (hla x hx).trans hlt
        · exact hlr x hx y hy

theorem inorder_join (l r : BinaryTree α) : inorder (join l r) = inorder l ++ inorder r := by
  induction l with
  | nil => rfl
  | node a l₁ l₂ _ ih => rw [join, inorder, ih, inorder, List.append_assoc, List.cons_append]

/-- Taking a node out leaves the others in their order. -/
theorem inorder_erase [DecidableEq α] (x : α) (hnodup : (inorder t).Nodup) :
    inorder (erase x t) = (inorder t).erase x := by
  induction t with
  | nil => rfl
  | node a l r ihl ihr =>
    rw [inorder, List.nodup_append] at hnodup
    obtain ⟨hl, har, hlr⟩ := hnodup
    obtain ⟨ha, hr⟩ := List.nodup_cons.1 har
    unfold erase
    split
    · next hax =>
      subst hax
      have hal : a ∉ inorder l := fun hmem => hlr a hmem a List.mem_cons_self rfl
      rw [inorder_join, inorder, List.erase_append_right _ hal, List.erase_cons_head]
    · next hax =>
      rw [inorder, ihl hl, ihr hr, inorder]
      by_cases hxl : x ∈ inorder l
      · have hxr : x ∉ inorder r := fun hmem => hlr x hxl x (List.mem_cons_of_mem a hmem) rfl
        rw [List.erase_append_left _ hxl, List.erase_of_not_mem hxr]
      · rw [List.erase_append_right _ hxl, List.erase_of_not_mem hxl,
          List.erase_cons_tail (by simpa using hax)]

theorem Sorted.nodup (h : Sorted key t) : (inorder t).Nodup :=
  h.imp fun hlt heq => absurd (congrArg key heq) hlt.ne

theorem erase_sorted [DecidableEq α] (x : α) (h : Sorted key t) : Sorted key (erase x t) := by
  unfold Sorted
  rw [inorder_erase x h.nodup]
  exact List.Pairwise.sublist List.erase_sublist h

theorem mem_erase [DecidableEq α] (h : Sorted key t) {x y : α} :
    y ∈ inorder (erase x t) ↔ y ≠ x ∧ y ∈ inorder t := by
  rw [inorder_erase x h.nodup, h.nodup.mem_erase_iff]

end SearchTree
