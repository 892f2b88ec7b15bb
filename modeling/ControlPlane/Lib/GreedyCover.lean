import Mathlib.Data.Finset.Card
import Mathlib.Logic.Relation
import Mathlib.Order.Basic
import Mathlib.Tactic.Common

/-!
# Greedy covers

Items cover elements. A greedy run takes, time after time, an item of the pool that adds
as many elements to the covered ones as any item of the pool, and at least one.
-/
namespace ControlPlane.Lib

variable {α β : Type} [DecidableEq β]

section

variable (cover : α → Finset β)

/-- What an item adds to the covered elements. -/
def gain (covered : Finset β) (a : α) : Nat := (cover a \ covered).card

/-- The covered elements after the items have been taken. -/
def coverFrom (covered : Finset β) (items : List α) : Finset β :=
  items.foldl (fun s a => s ∪ cover a) covered

/-- A greedy run from the covered elements. -/
inductive GreedyRun (pool : List α) : Finset β → List α → Prop
  | stop (covered : Finset β) : GreedyRun pool covered []
  | take {covered : Finset β} {a : α} {rest : List α} (mem : a ∈ pool)
      (best : ∀ b ∈ pool, gain cover covered b ≤ gain cover covered a)
      (adds : 0 < gain cover covered a) (run : GreedyRun pool (covered ∪ cover a) rest) :
      GreedyRun pool covered (a :: rest)

end

variable {cover : α → Finset β} {pool items : List α} {covered : Finset β} {a : α}

theorem gain_eq_zero_iff : gain cover covered a = 0 ↔ cover a ⊆ covered := by
  rw [gain, Finset.card_eq_zero, Finset.sdiff_eq_empty_iff_subset]

theorem coverFrom_cons (covered : Finset β) (a : α) (items : List α) :
    coverFrom cover covered (a :: items) = coverFrom cover (covered ∪ cover a) items := rfl

theorem mem_coverFrom {x : β} :
    x ∈ coverFrom cover covered items ↔ x ∈ covered ∨ ∃ a ∈ items, x ∈ cover a := by
  induction items generalizing covered with
  | nil => simp [coverFrom]
  | cons a items ih =>
      rw [coverFrom_cons, ih, Finset.mem_union, or_assoc, List.exists_mem_cons_iff]

theorem subset_coverFrom (covered : Finset β) (items : List α) :
    covered ⊆ coverFrom cover covered items :=
  fun _ hx => mem_coverFrom.mpr (Or.inl hx)

/-- An item that adds as much as one that would complete the cover completes it. -/
theorem completes_of_gain_le {whole : Finset β} {b : α} (hwhole : cover b ⊆ whole)
    (hcomplete : whole ⊆ covered ∪ cover a) (hle : gain cover covered a ≤ gain cover covered b) :
    whole ⊆ covered ∪ cover b := by
  have hmissing : whole \ covered ⊆ cover a \ covered := by
    intro x hx
    obtain ⟨hx, hnew⟩ := Finset.mem_sdiff.mp hx
    have hmem := (Finset.mem_union.mp (hcomplete hx)).resolve_left hnew
    exact Finset.mem_sdiff.mpr ⟨hmem, hnew⟩
  have hadded : cover b \ covered ⊆ whole \ covered :=
    Finset.sdiff_subset_sdiff hwhole (Finset.Subset.refl _)
  have hcard : (whole \ covered).card ≤ (cover b \ covered).card :=
    (Finset.card_le_card hmissing).trans hle
  have hsame := Finset.eq_of_subset_of_card_le hadded hcard
  intro x hx
  by_cases hcovered : x ∈ covered
  · exact Finset.mem_union_left _ hcovered
  · have hnew : x ∈ cover b \ covered := hsame ▸ Finset.mem_sdiff.mpr ⟨hx, hcovered⟩
    exact Finset.mem_union_right _ (Finset.mem_sdiff.mp hnew).1

namespace GreedyRun

theorem subset_pool (h : GreedyRun cover pool covered items) : ∀ a ∈ items, a ∈ pool := by
  induction h with
  | stop => simp
  | take mem _ _ _ ih => exact List.forall_mem_cons.mpr ⟨mem, ih⟩

/-- What a run takes was not covered before it. -/
theorem not_covered (h : GreedyRun cover pool covered items) :
    ∀ a ∈ items, ¬ cover a ⊆ covered := by
  induction h with
  | stop => simp
  | @take covered a rest _ _ adds _ ih =>
      refine List.forall_mem_cons.mpr ⟨fun hsub => ?_, fun b hb hsub => ?_⟩
      · rw [gain_eq_zero_iff.mpr hsub] at adds
        exact Nat.lt_irrefl 0 adds
      · exact ih b hb (hsub.trans Finset.subset_union_left)

theorem nodup (h : GreedyRun cover pool covered items) : items.Nodup := by
  induction h with
  | stop => exact List.nodup_nil
  | take _ _ _ run ih =>
      exact List.nodup_cons.mpr
        ⟨fun hmem => run.not_covered _ hmem Finset.subset_union_right, ih⟩

/-- At each item of a run. -/
theorem at_item (before : List α) {after : List α}
    (h : GreedyRun cover pool covered (before ++ a :: after)) :
    (∀ b ∈ pool, gain cover (coverFrom cover covered before) b ≤
      gain cover (coverFrom cover covered before) a) ∧
      0 < gain cover (coverFrom cover covered before) a := by
  induction before generalizing covered with
  | nil =>
      cases h with
      | take _ best adds _ => exact ⟨best, adds⟩
  | cons first before ih =>
      cases h with
      | take _ _ _ run => exact ih run

end GreedyRun

end ControlPlane.Lib

/-!
## Incumbents

A search that holds a value together with a bound, and takes another value only if its
score reaches the bound, which it then becomes. From the first value that is taken on the
scores do not fall; the start is beaten if whatever reaches its bound beats it.
-/
namespace ControlPlane.Lib

structure Incumbent (α S : Type) where
  value : α
  bound : S

variable {α S : Type} [Preorder S]

/-- One offer: the incumbent stays, or a value that reaches the bound is taken. -/
inductive Climbs (score : α → S) : Incumbent α S → Incumbent α S → Prop where
  | stay (i : Incumbent α S) : Climbs score i i
  | take {i : Incumbent α S} {v : α} (reaches : i.bound ≤ score v) : Climbs score i ⟨v, score v⟩

/-- Any number of offers. -/
abbrev Ascent (score : α → S) : Incumbent α S → Incumbent α S → Prop :=
  Relation.ReflTransGen (Climbs score)

namespace Ascent

variable {score : α → S} {i j : Incumbent α S}

theorem bound_le (h : Ascent score i j) : i.bound ≤ j.bound := by
  induction h with
  | refl => exact le_rfl
  | tail _ step ih =>
      cases step with
      | stay => exact ih
      | take reaches => exact ih.trans reaches

/-- What is held at the end is the start, or was taken at its score. -/
theorem eq_or_graded (h : Ascent score i j) : j = i ∨ j.bound = score j.value := by
  induction h with
  | refl => exact Or.inl rfl
  | tail _ step ih =>
      cases step with
      | stay => exact ih
      | take _ => exact Or.inr rfl

/-- A value that is held at its score is not followed by a worse one. -/
theorem score_le_of_graded (h : Ascent score i j) (graded : i.bound = score i.value) :
    score i.value ≤ score j.value := by
  rcases h.eq_or_graded with rfl | hgraded
  · exact le_rfl
  · rw [← graded, ← hgraded]
    exact h.bound_le

/-- A start is not followed by a worse value if whatever reaches its bound is not worse. -/
theorem score_le_of_fair (h : Ascent score i j)
    (fair : ∀ v, i.bound ≤ score v → score i.value ≤ score v) : score i.value ≤ score j.value := by
  rcases h.eq_or_graded with rfl | hgraded
  · exact le_rfl
  · exact fair j.value (hgraded ▸ h.bound_le)

/-- Nor is any value that is held on the way. -/
theorem held_le (before : Ascent score i j) {k : Incumbent α S} (rest : Ascent score j k)
    (fair : ∀ v, i.bound ≤ score v → score i.value ≤ score v) : score j.value ≤ score k.value := by
  rcases before.eq_or_graded with rfl | hgraded
  · exact rest.score_le_of_fair fair
  · exact rest.score_le_of_graded hgraded

end Ascent

end ControlPlane.Lib
