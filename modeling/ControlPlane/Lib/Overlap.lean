import Mathlib.Algebra.Order.Field.Rat
import Mathlib.Algebra.Order.Field.Basic
import Mathlib.Data.Finset.Card
import Mathlib.Tactic.Linarith
import Mathlib.Tactic.Positivity
import Mathlib.Tactic.Ring

/-!
# Overlap of finite sets

The Jaccard index of two finite sets: the size of the intersection over the size
of the union. Division by zero makes it 0 on two empty sets. One minus the index
satisfies the triangle inequality for all sets, the empty one included.
-/
namespace ControlPlane.Lib.Overlap

variable {α : Type*} [DecidableEq α]

def jaccard (a b : Finset α) : ℚ := ((a ∩ b).card : ℚ) / (a ∪ b).card

theorem jaccard_self {a : Finset α} (nonempty : a.Nonempty) : jaccard a a = 1 := by
  have hcard : (a.card : ℚ) ≠ 0 := by
    exact_mod_cast Finset.card_ne_zero.mpr nonempty
  simp only [jaccard, Finset.inter_self, Finset.union_self]
  exact div_self hcard

theorem jaccard_empty_right (a : Finset α) : jaccard a ∅ = 0 := by
  simp [jaccard]

theorem jaccard_empty_left (a : Finset α) : jaccard ∅ a = 0 := by
  simp [jaccard]

theorem jaccard_comm (a b : Finset α) : jaccard a b = jaccard b a := by
  rw [jaccard, jaccard, Finset.inter_comm, Finset.union_comm]

theorem jaccard_nonneg (a b : Finset α) : 0 ≤ jaccard a b := by
  unfold jaccard
  positivity

theorem jaccard_le_one (a b : Finset α) : jaccard a b ≤ 1 := by
  have hcard : (a ∩ b).card ≤ (a ∪ b).card :=
    Finset.card_le_card (Finset.inter_subset_left.trans Finset.subset_union_left)
  exact div_le_one_of_le₀ (by exact_mod_cast hcard) (by positivity)

theorem jaccard_lt_one {a b : Finset α} (h : a ≠ b) : jaccard a b < 1 := by
  have hproper : (a ∩ b).card < (a ∪ b).card := by
    apply Finset.card_lt_card
    refine Finset.ssubset_iff_subset_ne.mpr
      ⟨Finset.inter_subset_left.trans Finset.subset_union_left, ?_⟩
    intro heq
    exact h (inf_eq_sup.mp heq)
  have hpos : (0 : ℚ) < (a ∪ b).card := by
    exact_mod_cast lt_of_le_of_lt (Nat.zero_le _) hproper
  rw [jaccard, div_lt_one hpos]
  exact_mod_cast hproper

theorem jaccard_eq_zero_iff (a b : Finset α) : jaccard a b = 0 ↔ Disjoint a b := by
  rw [Finset.disjoint_iff_inter_eq_empty]
  constructor
  · intro h
    rcases div_eq_zero_iff.mp h with hinter | hunion
    · exact Finset.card_eq_zero.mp (by exact_mod_cast hinter)
    · have hempty : a ∪ b = ∅ := Finset.card_eq_zero.mp (by exact_mod_cast hunion)
      rw [Finset.union_eq_empty] at hempty
      rw [hempty.1, Finset.empty_inter]
  · intro h
    simp [jaccard, h]

/-- The size of the symmetric difference. -/
def apart (a b : Finset α) : ℚ := a.card + b.card - 2 * (a ∩ b).card

theorem one_sub_jaccard {a : Finset α} (b : Finset α) (nonempty : a.Nonempty) :
    1 - jaccard a b = 2 * apart a b / (a.card + b.card + apart a b) := by
  have hpos : (0 : ℚ) < (a ∪ b).card := by
    exact_mod_cast Finset.card_pos.mpr (nonempty.mono Finset.subset_union_left)
  have hsum : ((a ∪ b).card : ℚ) + (a ∩ b).card = a.card + b.card := by
    exact_mod_cast Finset.card_union_add_card_inter a b
  have htotal : (a.card + b.card + apart a b : ℚ) = 2 * (a ∪ b).card := by
    unfold apart
    linarith
  have hapart : apart a b = (a ∪ b).card - (a ∩ b).card := by
    unfold apart
    linarith
  rw [htotal, hapart, mul_div_mul_left _ _ two_ne_zero, sub_div, div_self hpos.ne', jaccard]

theorem apart_nonneg (a b : Finset α) : 0 ≤ apart a b := by
  have hleft : ((a ∩ b).card : ℚ) ≤ a.card := by
    exact_mod_cast Finset.card_le_card Finset.inter_subset_left
  have hright : ((a ∩ b).card : ℚ) ≤ b.card := by
    exact_mod_cast Finset.card_le_card Finset.inter_subset_right
  unfold apart
  linarith

theorem card_le_card_add_apart (a b : Finset α) : (a.card : ℚ) ≤ b.card + apart a b := by
  have hright : ((a ∩ b).card : ℚ) ≤ b.card := by
    exact_mod_cast Finset.card_le_card Finset.inter_subset_right
  unfold apart
  linarith

/-- A common part of `a` and `b` and one of `b` and `c` meet only inside `a` and `c`. -/
theorem card_inter_add_card_inter_le (a b c : Finset α) :
    (a ∩ b).card + (b ∩ c).card ≤ b.card + (a ∩ c).card := by
  have hsum := Finset.card_union_add_card_inter (a ∩ b) (b ∩ c)
  have hunion : (a ∩ b ∪ b ∩ c).card ≤ b.card :=
    Finset.card_le_card (Finset.union_subset Finset.inter_subset_right Finset.inter_subset_left)
  have hinter : (a ∩ b ∩ (b ∩ c)).card ≤ (a ∩ c).card := by
    apply Finset.card_le_card
    intro v hv
    simp only [Finset.mem_inter] at hv ⊢
    exact ⟨hv.1.1, hv.2.2⟩
  omega

theorem apart_triangle (a b c : Finset α) : apart a c ≤ apart a b + apart b c := by
  have hmeet : ((a ∩ b).card : ℚ) + (b ∩ c).card ≤ b.card + (a ∩ c).card := by
    exact_mod_cast card_inter_add_card_inter_le a b c
  unfold apart
  linarith

/-- Dividing a distance by a total that grows with it keeps the triangle inequality. -/
theorem div_total_triangle {p q r s t w : ℚ} (hp : 0 < p) (hq : 0 < q) (hr : 0 ≤ r)
    (hs : 0 ≤ s) (ht : 0 ≤ t) (hw : 0 ≤ w) (triangle : w ≤ s + t) (hqp : q ≤ p + s)
    (hqr : q ≤ r + t) :
    w / (p + r + w) ≤ s / (p + q + s) + t / (q + r + t) := by
  have hfirst : s / (p + r + (s + t)) ≤ s / (p + q + s) :=
    div_le_div_of_nonneg_left hs (by linarith) (by linarith)
  have hsecond : t / (p + r + (s + t)) ≤ t / (q + r + t) :=
    div_le_div_of_nonneg_left ht (by linarith) (by linarith)
  have hwhole : w / (p + r + w) ≤ (s + t) / (p + r + (s + t)) := by
    rw [div_le_div_iff₀ (by linarith) (by linarith)]
    have hscale : w * (p + r) ≤ (s + t) * (p + r) :=
      mul_le_mul_of_nonneg_right triangle (by linarith)
    calc
      w * (p + r + (s + t)) = w * (p + r) + w * (s + t) := by ring
      _ ≤ (s + t) * (p + r) + w * (s + t) := by linarith
      _ = (s + t) * (p + r + w) := by ring
  rw [add_div] at hwhole
  linarith

/-- The triangle inequality of the distance `1 - jaccard`. -/
theorem jaccard_triangle (a b c : Finset α) :
    jaccard a b + jaccard b c ≤ 1 + jaccard a c := by
  rcases Finset.eq_empty_or_nonempty a with rfl | ha
  · rw [jaccard_empty_left, jaccard_empty_left]
    have := jaccard_le_one b c
    linarith
  rcases Finset.eq_empty_or_nonempty b with rfl | hb
  · rw [jaccard_empty_left, jaccard_empty_right]
    have := jaccard_nonneg a c
    linarith
  have hba : (b.card : ℚ) ≤ a.card + apart a b := by
    have := card_le_card_add_apart b a
    unfold apart at this ⊢
    rw [Finset.inter_comm] at this
    linarith
  have htriangle := div_total_triangle (by exact_mod_cast Finset.card_pos.mpr ha)
    (by exact_mod_cast Finset.card_pos.mpr hb) (Nat.cast_nonneg c.card) (apart_nonneg a b)
    (apart_nonneg b c) (apart_nonneg a c) (apart_triangle a b c) hba
    (card_le_card_add_apart b c)
  have hab := one_sub_jaccard b ha
  have hbc := one_sub_jaccard c hb
  have hac := one_sub_jaccard c ha
  rw [mul_div_assoc] at hab hbc hac
  linarith

end ControlPlane.Lib.Overlap
