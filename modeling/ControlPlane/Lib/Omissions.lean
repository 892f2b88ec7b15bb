import Mathlib.Data.List.Basic
import Mathlib.Tactic.Common

/-!
# Lists with repetitions left out

A list is thinned out: an element may be left out once an equal one has been kept, and
marks may be put in anywhere. The first occurrences stay where they are, and nothing but
the mark is new.
-/
namespace ControlPlane.Lib

variable {α β : Type}

/-- `Omits mark kept l out`: the elements `kept` stand in front of what `out` has of `l`. -/
inductive Omits (mark : α) : List α → List α → List α → Prop
  | done (kept : List α) : Omits mark kept [] []
  | keep {kept l out : List α} (x : α) (rest : Omits mark (x :: kept) l out) :
      Omits mark kept (x :: l) (x :: out)
  | leave {kept l out : List α} {x : α} (seen : x ∈ kept) (rest : Omits mark kept l out) :
      Omits mark kept (x :: l) out
  | note {kept l out : List α} (rest : Omits mark kept l out) : Omits mark kept l (mark :: out)

namespace Omits

variable {mark : α} {kept l out : List α}

theorem keep_all (mark : α) (kept l : List α) : Omits mark kept l l := by
  induction l generalizing kept with
  | nil => exact .done kept
  | cons x rest ih => exact .keep x (ih (x :: kept))

theorem keep_append (block : List α) (rest : Omits mark (block.reverse ++ kept) l out) :
    Omits mark kept (block ++ l) (block ++ out) := by
  induction block generalizing kept with
  | nil => exact rest
  | cons x block ih =>
      refine .keep x (ih ?_)
      rwa [List.reverse_cons, List.append_assoc, List.singleton_append] at rest

theorem leave_append {block : List α} (seen : ∀ x ∈ block, x ∈ kept)
    (rest : Omits mark kept l out) : Omits mark kept (block ++ l) out := by
  induction block with
  | nil => exact rest
  | cons x block ih =>
      exact .leave (seen x (List.mem_cons_self ..))
        (ih fun y hy => seen y (List.mem_cons_of_mem x hy))

theorem map (h : Omits mark kept l out) (f : α → β) :
    Omits (f mark) (kept.map f) (l.map f) (out.map f) := by
  induction h with
  | done kept => exact .done _
  | keep x _ ih => exact .keep (f x) ih
  | leave seen _ ih => exact .leave (List.mem_map_of_mem seen) ih
  | note _ ih => exact .note ih

theorem filter (h : Omits mark kept l out) (p : α → Bool) :
    Omits mark (kept.filter p) (l.filter p) (out.filter p) := by
  induction h with
  | done kept => exact .done _
  | keep x _ ih =>
      rw [List.filter_cons, List.filter_cons]
      by_cases hx : p x = true
      · rw [List.filter_cons_of_pos hx] at ih
        rw [if_pos hx, if_pos hx]
        exact .keep x ih
      · rw [List.filter_cons_of_neg hx] at ih
        rwa [if_neg hx, if_neg hx]
  | leave seen _ ih =>
      rw [List.filter_cons]
      split
      · next hx => exact .leave (List.mem_filter.mpr ⟨seen, hx⟩) ih
      · exact ih
  | note _ ih =>
      rw [List.filter_cons]
      split
      · exact .note ih
      · exact ih

theorem mem (h : Omits mark kept l out) : ∀ x ∈ out, x = mark ∨ x ∈ l := by
  induction h with
  | done kept => simp
  | keep x _ ih =>
      intro y hy
      rcases List.mem_cons.mp hy with rfl | hy
      · exact Or.inr (List.mem_cons_self ..)
      · exact (ih y hy).imp id (List.mem_cons_of_mem x)
  | leave _ _ ih => exact fun y hy => (ih y hy).imp id (List.mem_cons_of_mem _)
  | note _ ih =>
      intro y hy
      rcases List.mem_cons.mp hy with rfl | hy
      · exact Or.inl rfl
      · exact ih y hy

/-! ## First occurrences -/

variable [BEq α] [LawfulBEq α]

/-- The first occurrences of what is not among `kept`. -/
def firsts (kept l : List α) : List α := (l.filter fun x => !kept.contains x).eraseDups

theorem firsts_nil (l : List α) : firsts [] l = l.eraseDups := by simp [firsts]

theorem firsts_of_mem {x : α} (h : x ∈ kept) (l : List α) :
    firsts kept (x :: l) = firsts kept l := by
  simp [firsts, h]

theorem firsts_of_not_mem {x : α} (h : x ∉ kept) (l : List α) :
    firsts kept (x :: l) = x :: firsts (x :: kept) l := by
  unfold firsts
  rw [List.filter_cons_of_pos (by simpa using h), List.eraseDups_cons, List.filter_filter]
  congr 2
  apply List.filter_congr
  intro y _
  rw [List.contains_cons, Bool.not_or]

theorem firsts_again {x : α} (h : x ∈ kept) (l : List α) :
    firsts (x :: kept) l = firsts kept l := by
  unfold firsts
  congr 1
  refine List.filter_congr fun y _ => ?_
  rw [Bool.not_inj_iff, Bool.eq_iff_iff, List.contains_iff_mem, List.contains_iff_mem,
    List.mem_cons]
  exact or_iff_right_of_imp fun heq => heq ▸ h

/-- The first occurrences are kept in their order. -/
theorem firsts_sublist (h : Omits mark kept l out) : (firsts kept l).Sublist out := by
  induction h with
  | done kept => exact List.Sublist.refl _
  | @keep kept l out x _ ih =>
      by_cases hx : x ∈ kept
      · rw [firsts_of_mem hx, ← firsts_again hx]
        exact ih.trans (List.sublist_cons_self x out)
      · rw [firsts_of_not_mem hx]
        exact ih.cons_cons x
  | leave seen _ ih => rwa [firsts_of_mem seen]
  | note _ ih => exact ih.trans (List.sublist_cons_self _ _)

/-- Without a mark the first occurrences are the same ones. -/
theorem firsts_eq (h : Omits mark kept l out) (unmarked : mark ∉ out) :
    firsts kept out = firsts kept l := by
  induction h with
  | done kept => rfl
  | @keep kept l out x _ ih =>
      have hrest := ih fun hmem => unmarked (List.mem_cons_of_mem x hmem)
      by_cases hx : x ∈ kept
      · rwa [firsts_of_mem hx, firsts_of_mem hx, ← firsts_again hx, ← firsts_again hx]
      · rw [firsts_of_not_mem hx, firsts_of_not_mem hx, hrest]
  | leave seen _ ih => rw [firsts_of_mem seen, ih unmarked]
  | note _ _ => exact absurd (List.mem_cons_self ..) unmarked

end Omits

end ControlPlane.Lib
