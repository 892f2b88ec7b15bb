import Mathlib.Algebra.BigOperators.Ring.Finset
import Mathlib.Algebra.Order.BigOperators.Ring.Finset
import Mathlib.Algebra.Order.Chebyshev
import Mathlib.Tactic.FieldSimp
import Mathlib.Tactic.Ring

/-!
# Second moments of a family of vectors

The sums of products of the columns of a table are a positive semidefinite matrix, of which the
squared trace is at least the sum of the squared entries and at most that sum times the number of
columns. Where the columns sum to zero it is also at most that sum times the number of rows less
one: the products of the rows then are orthogonal to the all-ones matrix.
-/
namespace ControlPlane.Lib

variable {ι κ K : Type} [Field K] {s : Finset ι} {t : Finset κ} {A : ι → κ → K}

/-- The sum of the products of two columns. -/
def cross (s : Finset ι) (A : ι → κ → K) (j k : κ) : K := ∑ i ∈ s, A i j * A i k

/-- The sum of the squared products of all pairs of columns. -/
def crossSq (s : Finset ι) (t : Finset κ) (A : ι → κ → K) : K :=
  ∑ j ∈ t, ∑ k ∈ t, cross s A j k ^ 2

def crossTrace (s : Finset ι) (t : Finset κ) (A : ι → κ → K) : K := ∑ j ∈ t, cross s A j j

theorem cross_self (j : κ) : cross s A j j = ∑ i ∈ s, A i j ^ 2 :=
  Finset.sum_congr rfl fun i _ => (sq (A i j)).symm

/-- Rows and columns may change places. -/
theorem crossTrace_swap : crossTrace s t A = crossTrace t s fun j i => A i j := Finset.sum_comm

theorem crossSq_swap : crossSq s t A = crossSq t s fun j i => A i j := by
  have hexpand : ∀ {α β : Type} (s : Finset α) (t : Finset β) (B : α → β → K), crossSq s t B =
      ∑ j ∈ t, ∑ k ∈ t, ∑ i ∈ s, ∑ l ∈ s, B i j * B i k * (B l j * B l k) := by
    intro α β s t B
    refine Finset.sum_congr rfl fun j _ => Finset.sum_congr rfl fun k _ => ?_
    rw [sq, cross, Finset.sum_mul_sum]
  have hpair : ∀ f : κ → κ → ι → ι → K, ∑ j ∈ t, ∑ k ∈ t, ∑ i ∈ s, ∑ l ∈ s, f j k i l =
      ∑ i ∈ s, ∑ l ∈ s, ∑ j ∈ t, ∑ k ∈ t, f j k i l := by
    intro f
    calc ∑ j ∈ t, ∑ k ∈ t, ∑ i ∈ s, ∑ l ∈ s, f j k i l
        = ∑ p ∈ t ×ˢ t, ∑ q ∈ s ×ˢ s, f p.1 p.2 q.1 q.2 := by
          simp only [Finset.sum_product]
      _ = ∑ q ∈ s ×ˢ s, ∑ p ∈ t ×ˢ t, f p.1 p.2 q.1 q.2 := Finset.sum_comm
      _ = ∑ i ∈ s, ∑ l ∈ s, ∑ j ∈ t, ∑ k ∈ t, f j k i l := by
          simp only [Finset.sum_product]
  rw [hexpand, hexpand, hpair]
  refine Finset.sum_congr rfl fun i _ => Finset.sum_congr rfl fun l _ => ?_
  refine Finset.sum_congr rfl fun j _ => Finset.sum_congr rfl fun k _ => ?_
  ring

variable [LinearOrder K] [IsStrictOrderedRing K]

theorem cross_sq_le (j k : κ) : cross s A j k ^ 2 ≤ cross s A j j * cross s A k k := by
  rw [cross_self, cross_self]
  exact Finset.sum_mul_sq_le_sq_mul_sq s (fun i => A i j) fun i => A i k

theorem crossSq_nonneg : 0 ≤ crossSq s t A :=
  Finset.sum_nonneg fun _ _ => Finset.sum_nonneg fun _ _ => sq_nonneg _

theorem crossSq_le_trace_sq : crossSq s t A ≤ crossTrace s t A ^ 2 := by
  calc crossSq s t A
      ≤ ∑ j ∈ t, ∑ k ∈ t, cross s A j j * cross s A k k :=
        Finset.sum_le_sum fun j _ => Finset.sum_le_sum fun k _ => cross_sq_le j k
    _ = crossTrace s t A ^ 2 := by rw [sq, crossTrace, Finset.sum_mul_sum]

theorem trace_sq_le_columns : crossTrace s t A ^ 2 ≤ (t.card : K) * crossSq s t A := by
  have hdiag : ∑ j ∈ t, cross s A j j ^ 2 ≤ crossSq s t A := by
    apply Finset.sum_le_sum
    intro j hj
    exact Finset.single_le_sum (fun k _ => sq_nonneg (cross s A j k)) hj
  calc crossTrace s t A ^ 2
      ≤ (t.card : K) * ∑ j ∈ t, cross s A j j ^ 2 := sq_sum_le_card_mul_sum_sq
    _ ≤ (t.card : K) * crossSq s t A := mul_le_mul_of_nonneg_left hdiag (Nat.cast_nonneg _)

omit [LinearOrder K] [IsStrictOrderedRing K] in
/-- The products of the rows sum to zero in every row. -/
theorem sum_cross_rows_eq_zero (centered : ∀ j ∈ t, ∑ i ∈ s, A i j = 0) (i : ι) :
    ∑ l ∈ s, cross t (fun j i => A i j) i l = 0 := by
  unfold cross
  rw [Finset.sum_comm]
  apply Finset.sum_eq_zero
  intro j hj
  rw [← Finset.mul_sum, centered j hj, mul_zero]

section Centering

variable [DecidableEq ι] [CharZero K]

/-- The matrix of the map that takes the mean off. -/
def centering (s : Finset ι) (i l : ι) : K := (if i = l then 1 else 0) - 1 / (s.card : K)

omit [LinearOrder K] [IsStrictOrderedRing K] in
theorem sum_centering_sq (nonempty : s.Nonempty) :
    ∑ i ∈ s, ∑ l ∈ s, (centering s i l : K) ^ 2 = (s.card : K) - 1 := by
  have hcard : (s.card : K) ≠ 0 := Nat.cast_ne_zero.mpr nonempty.card_ne_zero
  have hrow : ∀ i ∈ s, ∑ l ∈ s, (centering s i l : K) ^ 2 = 1 - 1 / (s.card : K) := by
    intro i hi
    have hentry : ∀ l ∈ s, (centering s i l : K) ^ 2 =
        (if i = l then 1 - 2 / (s.card : K) else 0) + (1 / (s.card : K)) ^ 2 := by
      intro l _
      unfold centering
      split
      · ring
      · ring
    rw [Finset.sum_congr rfl hentry, Finset.sum_add_distrib, Finset.sum_ite_eq, if_pos hi,
      Finset.sum_const, nsmul_eq_mul]
    field_simp
    ring
  rw [Finset.sum_congr rfl hrow, Finset.sum_const, nsmul_eq_mul]
  field_simp

end Centering

theorem trace_sq_le_rows (nonempty : s.Nonempty) (centered : ∀ j ∈ t, ∑ i ∈ s, A i j = 0) :
    crossTrace s t A ^ 2 ≤ ((s.card : K) - 1) * crossSq s t A := by
  classical
  have htrace : crossTrace s t A =
      ∑ p ∈ s ×ˢ s, centering s p.1 p.2 * cross t (fun j i => A i j) p.1 p.2 := by
    rw [crossTrace_swap, crossTrace, Finset.sum_product]
    apply Finset.sum_congr rfl
    intro i hi
    simp only [centering, sub_mul, ite_mul, one_mul, zero_mul, Finset.sum_sub_distrib]
    rw [Finset.sum_ite_eq, if_pos hi, ← Finset.mul_sum, sum_cross_rows_eq_zero centered, mul_zero,
      sub_zero]
  calc crossTrace s t A ^ 2
      ≤ (∑ p ∈ s ×ˢ s, centering s p.1 p.2 ^ 2) *
          ∑ p ∈ s ×ˢ s, cross t (fun j i => A i j) p.1 p.2 ^ 2 := by
        rw [htrace]
        exact Finset.sum_mul_sq_le_sq_mul_sq _ _ _
    _ = ((s.card : K) - 1) * crossSq s t A := by
        rw [Finset.sum_product, Finset.sum_product, sum_centering_sq nonempty, crossSq_swap]
        rfl

end ControlPlane.Lib
