import Mathlib.Data.List.Nodup
import Mathlib.Data.Nat.Log
import Mathlib.Data.Option.Basic
import Mathlib.Tactic.Common

/-!
# Brackets

A bracket is a binary tree: an entry at each leaf and a merge of two values at each inner
node. A merge may fail, and with it every bracket that contains it. Where the merge is
associative the value of a bracket is the left fold over its leaves, whatever its shape.
-/
namespace ControlPlane.Lib

inductive Bracket (α : Type) where
  | leaf (entry : α)
  | node (left right : Bracket α)

namespace Bracket

variable {α β : Type}

def leaves : Bracket α → List α
  | leaf entry => [entry]
  | node left right => left.leaves ++ right.leaves

/-- The inner nodes, each with its two sides. -/
def nodes : Bracket α → List (Bracket α × Bracket α)
  | leaf _ => []
  | node left right => (left, right) :: (left.nodes ++ right.nodes)

def value (entryValue : α → β) (merge : β → β → Option β) : Bracket α → Option β
  | leaf entry => some (entryValue entry)
  | node left right =>
      (left.value entryValue merge).bind fun a =>
        (right.value entryValue merge).bind fun b => merge a b

/-! ## Leaves and nodes -/

theorem leaves_ne_nil (t : Bracket α) : t.leaves ≠ [] := by
  induction t with
  | leaf entry => simp [leaves]
  | node left right ihl _ => simp [leaves, ihl]

theorem leaves_subset_of_mem_nodes {t left right : Bracket α} (h : (left, right) ∈ t.nodes) :
    left.leaves ++ right.leaves ⊆ t.leaves := by
  induction t with
  | leaf entry => simp [nodes] at h
  | node l r ihl ihr =>
      rcases List.mem_cons.mp h with hroot | hrest
      · cases hroot
        exact List.Subset.refl _
      rcases List.mem_append.mp hrest with hl | hr
      · exact List.Subset.trans (ihl hl) (List.subset_append_left _ _)
      · exact List.Subset.trans (ihr hr) (List.subset_append_right _ _)

/-- The first leaf is on the left side of every node it is below. -/
theorem head_leaves_left {t left right : Bracket α} {first : α} (nodup : t.leaves.Nodup)
    (head : t.leaves.head? = some first) (node : (left, right) ∈ t.nodes)
    (below : first ∈ left.leaves ++ right.leaves) : left.leaves.head? = some first := by
  induction t with
  | leaf entry => simp [nodes] at node
  | node l r ihl ihr =>
      rw [leaves, List.nodup_append] at nodup
      have hhead : l.leaves.head? = some first := by
        rw [leaves] at head
        rwa [List.head?_append_of_ne_nil _ l.leaves_ne_nil] at head
      rcases List.mem_cons.mp node with hroot | hrest
      · cases hroot
        exact hhead
      rcases List.mem_append.mp hrest with hl | hr
      · exact ihl nodup.1 hhead hl
      · have hmem : first ∈ r.leaves := leaves_subset_of_mem_nodes hr below
        exact absurd rfl (nodup.2.2 first (List.mem_of_mem_head? hhead) first hmem)

/-! ## Associative merges -/

/-- Merging in either order fails together and gives the same. -/
def Associative (merge : β → β → Option β) : Prop :=
  ∀ a b c, ((merge a b).bind fun x => merge x c) = (merge b c).bind fun y => merge a y

theorem foldlM_merge {merge : β → β → Option β} (assoc : Associative merge) (a b : β)
    (rest : List β) :
    (b :: rest).foldlM merge a = (rest.foldlM merge b).bind fun y => merge a y := by
  induction rest generalizing b with
  | nil => simp
  | cons c rest ih =>
      have hstep : ∀ x, (c :: rest).foldlM merge x =
          (merge x c).bind fun z => rest.foldlM merge z := fun _ => rfl
      calc (b :: c :: rest).foldlM merge a
          = (merge a b).bind fun x => (merge x c).bind fun z => rest.foldlM merge z := rfl
        _ = ((merge b c).bind fun y => merge a y).bind fun z => rest.foldlM merge z := by
          rw [← assoc a b c, Option.bind_assoc]
        _ = (merge b c).bind fun y => (y :: rest).foldlM merge a := by
          rw [Option.bind_assoc]
          rfl
        _ = (merge b c).bind fun y => (rest.foldlM merge y).bind fun z => merge a z := by
          simp only [ih]
        _ = ((c :: rest).foldlM merge b).bind fun z => merge a z := by
          rw [hstep b, Option.bind_assoc]

theorem value_of_associative {merge : β → β → Option β} (assoc : Associative merge)
    (entryValue : α → β) {t : Bracket α} {a : β} {rest : List β}
    (values : t.leaves.map entryValue = a :: rest) :
    t.value entryValue merge = rest.foldlM merge a := by
  induction t generalizing a rest with
  | leaf entry =>
      cases values
      rfl
  | node left right ihl ihr =>
      obtain ⟨x, xs, hleft⟩ : ∃ x xs, left.leaves.map entryValue = x :: xs :=
        List.exists_cons_of_ne_nil (by simpa using left.leaves_ne_nil)
      obtain ⟨y, ys, hright⟩ : ∃ y ys, right.leaves.map entryValue = y :: ys :=
        List.exists_cons_of_ne_nil (by simpa using right.leaves_ne_nil)
      rw [leaves, List.map_append, hleft, hright, List.cons_append] at values
      obtain ⟨rfl, rfl⟩ := List.cons.inj values
      rw [value, ihl hleft, ihr hright, List.foldlM_append]
      refine Option.bind_congr fun b _ => ?_
      exact (foldlM_merge assoc b y ys).symm

end Bracket

end ControlPlane.Lib
