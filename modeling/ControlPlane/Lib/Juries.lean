import ControlPlane.Lib.Numerals
import Mathlib.Analysis.Calculus.Deriv.MeanValue
import Mathlib.Analysis.Calculus.Deriv.Polynomial
import Mathlib.Data.Nat.Choose.Central
import Mathlib.RingTheory.Polynomial.Bernstein
import Mathlib.Tactic.FieldSimp
import Mathlib.Tactic.Linarith
import Mathlib.Tactic.LinearCombination
import Mathlib.Tactic.Ring

/-!
# Juries

The probability that more than half of `n` independent votes are right, where each is right
with probability `X` and a tie counts one half. An even jury is as good as the one with a
vote less; two more votes add an advantage with the sign of `2 X - 1`.
-/
namespace ControlPlane.Lib.Jury

open Polynomial

variable (K : Type) [Field K]

/-- At least `j` of `n` votes are right. -/
noncomputable def atLeast (n j : ℕ) : K[X] :=
  ∑ k ∈ Finset.Ico j (n + 1), bernsteinPolynomial K n k

noncomputable def majority (n : ℕ) : K[X] :=
  atLeast K n (n / 2 + 1) + if Even n then C (1 / 2) * bernsteinPolynomial K n (n / 2) else 0

/-- How much the step from `2 j + 1` to `2 j + 3` votes adds, up to the factor `2 X - 1`. -/
noncomputable def stepGain (j : ℕ) : K[X] :=
  ((2 * j + 1).choose (j + 1) : K[X]) * (X * (1 - X)) ^ (j + 1)

/-! ## One vote more -/

variable {K}

theorem bernstein_succ (n k : ℕ) :
    bernsteinPolynomial K (n + 1) (k + 1) =
      X * bernsteinPolynomial K n k + (1 - X) * bernsteinPolynomial K n (k + 1) := by
  rcases Nat.lt_trichotomy n k with hlt | rfl | hgt
  · rw [bernsteinPolynomial.eq_zero_of_lt K hlt,
      bernsteinPolynomial.eq_zero_of_lt K (by omega : n < k + 1),
      bernsteinPolynomial.eq_zero_of_lt K (by omega : n + 1 < k + 1)]
    ring
  · rw [bernsteinPolynomial.eq_zero_of_lt K (Nat.lt_succ_self n)]
    simp [bernsteinPolynomial]
    ring
  · obtain ⟨d, rfl⟩ : ∃ d, n = k + 1 + d := ⟨n - (k + 1), by omega⟩
    have hk : k + 1 + d - k = d + 1 := by omega
    have hsucc : k + 1 + d + 1 - (k + 1) = d + 1 := by omega
    have hd : k + 1 + d - (k + 1) = d := by omega
    unfold bernsteinPolynomial
    rw [hsucc, hk, hd, Nat.choose_succ_succ]
    push_cast
    ring

theorem atLeast_eq {n j : ℕ} (h : j ≤ n) :
    atLeast K n j = bernsteinPolynomial K n j + atLeast K n (j + 1) :=
  Finset.sum_eq_sum_Ico_succ_bot (by omega) _

theorem sum_shifted (n j : ℕ) :
    ∑ k ∈ Finset.Ico j (n + 1), bernsteinPolynomial K n (k + 1) = atLeast K n (j + 1) := by
  rcases Nat.lt_or_ge n j with hlt | hge
  · rw [atLeast, Finset.Ico_eq_empty (by omega), Finset.Ico_eq_empty (by omega),
      Finset.sum_empty, Finset.sum_empty]
  · rw [Finset.sum_Ico_add' (fun k => bernsteinPolynomial K n k), atLeast,
      Finset.sum_Ico_succ_top (by omega : j + 1 ≤ n + 1),
      bernsteinPolynomial.eq_zero_of_lt K (Nat.lt_succ_self n), add_zero]

theorem atLeast_shift (n j : ℕ) :
    atLeast K (n + 1) (j + 1) =
      ∑ k ∈ Finset.Ico j (n + 1), bernsteinPolynomial K (n + 1) (k + 1) := by
  unfold atLeast
  rw [Finset.sum_Ico_add' (fun k => bernsteinPolynomial K (n + 1) k)]

/-- A vote more helps the cases in which one right vote was missing. -/
theorem atLeast_succ {n j : ℕ} (h : j ≤ n) :
    atLeast K (n + 1) (j + 1) = atLeast K n (j + 1) + X * bernsteinPolynomial K n j := by
  rw [atLeast_shift]
  simp only [bernstein_succ]
  rw [Finset.sum_add_distrib, ← Finset.mul_sum, ← Finset.mul_sum, sum_shifted]
  change X * atLeast K n j + _ = _
  rw [atLeast_eq h]
  ring

theorem derivative_atLeast {n j : ℕ} (h : j ≤ n) :
    derivative (atLeast K (n + 1) (j + 1)) = (n + 1) * bernsteinPolynomial K n j := by
  rw [atLeast_shift, derivative_sum]
  simp only [bernsteinPolynomial.derivative_succ_aux]
  rw [← Finset.mul_sum, Finset.sum_sub_distrib, sum_shifted]
  change (n + 1) * (atLeast K n j - _) = _
  rw [atLeast_eq h, add_sub_cancel_right]

/-! ## Even juries and two votes more -/

theorem centralBinom_succ_eq (m : ℕ) :
    (m + 1).centralBinom = 2 * (2 * m + 1).choose (m + 1) := by
  have hsum : (2 * m + 2).choose (m + 1) =
      (2 * m + 1).choose m + (2 * m + 1).choose (m + 1) := Nat.choose_succ_succ' _ _
  have hsymm := Nat.choose_symm_half m
  have hcentral : (m + 1).centralBinom = (2 * m + 2).choose (m + 1) := rfl
  omega

theorem tie_eq (m : ℕ) :
    bernsteinPolynomial K (2 * m + 2) (m + 1) = 2 * stepGain K m := by
  have hchoose : (2 * m + 2).choose (m + 1) = 2 * (2 * m + 1).choose (m + 1) :=
    centralBinom_succ_eq m
  have hsub : 2 * m + 2 - (m + 1) = m + 1 := by omega
  rw [bernsteinPolynomial, stepGain, hchoose, hsub, mul_pow]
  push_cast
  ring

theorem bare_majority_eq (m : ℕ) :
    (1 - X) * bernsteinPolynomial K (2 * m + 1) (m + 1) = stepGain K m := by
  have hsub : 2 * m + 1 - (m + 1) = m := by omega
  rw [bernsteinPolynomial, stepGain, hsub, mul_pow, pow_succ (1 - X)]
  ring

theorem majority_odd (m : ℕ) : majority K (2 * m + 1) = atLeast K (2 * m + 1) (m + 1) := by
  have hhalf : (2 * m + 1) / 2 = m := by omega
  have hodd : ¬Even (2 * m + 1) := by simp
  rw [majority, hhalf, if_neg hodd, add_zero]

theorem atLeast_above_tie (m : ℕ) :
    atLeast K (2 * m + 2) (m + 2) = majority K (2 * m + 1) - stepGain K m := by
  rw [atLeast_succ (by omega), majority_odd, atLeast_eq (by omega : m + 1 ≤ 2 * m + 1),
    ← bare_majority_eq]
  ring

variable [CharZero K]

/-- The vote that makes a jury even is worth nothing. -/
theorem majority_even (m : ℕ) : majority K (2 * m + 2) = majority K (2 * m + 1) := by
  have hhalf : (2 * m + 2) / 2 = m + 1 := by omega
  have heven : Even (2 * m + 2) := ⟨m + 1, by omega⟩
  have hone : (C (1 / 2) * 2 : K[X]) = 1 := by
    rw [← C_ofNat, ← C_mul]
    norm_num
  rw [majority, hhalf, if_pos heven, atLeast_above_tie, tie_eq]
  linear_combination stepGain K m * hone

omit [CharZero K] in
theorem majority_step (m : ℕ) :
    majority K (2 * m + 3) = majority K (2 * m + 1) + (2 * X - 1) * stepGain K m := by
  have hodd := @majority_odd K _ (m + 1)
  rw [show 2 * (m + 1) + 1 = 2 * m + 2 + 1 by ring, atLeast_succ (by omega)] at hodd
  rw [hodd, atLeast_above_tie, tie_eq]
  ring

omit [CharZero K] in
theorem majority_one : majority K 1 = X := by
  have hodd := @majority_odd K _ 0
  rw [hodd, atLeast]
  simp [bernsteinPolynomial]

omit [CharZero K] in
/-- A jury of `2 m + 1` votes, counted from a single vote on. -/
theorem majority_eq (m : ℕ) :
    majority K (2 * m + 1) = X + (2 * X - 1) * ∑ j ∈ Finset.range m, stepGain K j := by
  induction m with
  | zero =>
      simp only [Finset.sum_range_zero, mul_zero, add_zero, zero_add]
      exact majority_one
  | succ m ih =>
      rw [show 2 * (m + 1) + 1 = 2 * m + 3 by ring, majority_step, ih, Finset.sum_range_succ]
      ring

/-! ## Values -/

section Values

variable {L : Type} [Field L] [LinearOrder L] [IsStrictOrderedRing L]

/-- The value of `stepGain`, where `y` is the product of the two probabilities. -/
def stepValue (j : ℕ) (y : L) : L := ((2 * j + 1).choose (j + 1) : L) * y ^ (j + 1)

/-- What `m` steps of two votes add. -/
def advantage (m : ℕ) (y : L) : L := ∑ j ∈ Finset.range m, stepValue j y

omit [LinearOrder L] [IsStrictOrderedRing L] in
theorem advantage_succ (m : ℕ) (y : L) :
    advantage (m + 1) y = advantage m y + stepValue m y :=
  Finset.sum_range_succ _ m

theorem stepValue_nonneg (j : ℕ) {y : L} (hy : 0 ≤ y) : 0 ≤ stepValue j y :=
  mul_nonneg (Nat.cast_nonneg _) (pow_nonneg hy (j + 1))

theorem advantage_nonneg (m : ℕ) {y : L} (hy : 0 ≤ y) : 0 ≤ advantage m y :=
  Finset.sum_nonneg fun j _ => stepValue_nonneg j hy

theorem advantage_mono {m m' : ℕ} (h : m ≤ m') {y : L} (hy : 0 ≤ y) :
    advantage m y ≤ advantage m' y := by
  refine Finset.sum_le_sum_of_subset_of_nonneg (Finset.range_mono h) ?_
  intro j _ _
  exact stepValue_nonneg j hy

/-- Juries come in pairs: `2 m + 1` and `2 m + 2` votes. -/
theorem eval_majority (n : ℕ) (hn : 1 ≤ n) (p : L) :
    (majority L n).eval p = p + (2 * p - 1) * advantage ((n - 1) / 2) (p * (1 - p)) := by
  have hodd : ∀ m, (majority L (2 * m + 1)).eval p =
      p + (2 * p - 1) * advantage m (p * (1 - p)) := by
    intro m
    rw [majority_eq]
    simp [advantage, stepValue, stepGain, eval_finsetSum]
  rcases Nat.even_or_odd n with ⟨m, hm⟩ | ⟨m, hm⟩
  · obtain ⟨d, rfl⟩ : ∃ d, m = d + 1 := ⟨m - 1, by omega⟩
    have hhalf : (n - 1) / 2 = d := by omega
    rw [hhalf, ← hodd, hm, show d + 1 + (d + 1) = 2 * d + 2 by ring, majority_even]
  · have hhalf : (n - 1) / 2 = m := by omega
    rw [hhalf, hm, hodd]

theorem complement_mul_nonneg {p : L} (hp : 0 ≤ p) (hp' : p ≤ 1) : 0 ≤ p * (1 - p) :=
  mul_nonneg hp (sub_nonneg.mpr hp')

/-- Wrong votes are right votes for the other side. -/
theorem eval_majority_compl (n : ℕ) (hn : 1 ≤ n) (p : L) :
    (majority L n).eval (1 - p) = 1 - (majority L n).eval p := by
  rw [eval_majority n hn, eval_majority n hn, sub_sub_cancel, mul_comm (1 - p) p]
  ring

theorem eval_bernstein_nonneg (n k : ℕ) {p : L} (hp : 0 ≤ p) (hp' : p ≤ 1) :
    0 ≤ (bernsteinPolynomial L n k).eval p := by
  have hq : 0 ≤ 1 - p := sub_nonneg.mpr hp'
  simp only [bernsteinPolynomial, eval_mul, eval_natCast, eval_pow, eval_X, eval_sub, eval_one]
  positivity

theorem eval_majority_nonneg (n : ℕ) {p : L} (hp : 0 ≤ p) (hp' : p ≤ 1) :
    0 ≤ (majority L n).eval p := by
  rw [majority, atLeast, eval_add, eval_finsetSum]
  apply add_nonneg
  · exact Finset.sum_nonneg fun k _ => eval_bernstein_nonneg n k hp hp'
  · split
    · rw [eval_mul, eval_C]
      exact mul_nonneg (by norm_num) (eval_bernstein_nonneg n (n / 2) hp hp')
    · rw [eval_zero]

theorem eval_majority_le_one (n : ℕ) (hn : 1 ≤ n) {p : L} (hp : 0 ≤ p) (hp' : p ≤ 1) :
    (majority L n).eval p ≤ 1 := by
  have hcompl := eval_majority_compl n hn p
  have hnonneg := eval_majority_nonneg n (sub_nonneg.mpr hp') (sub_le_self 1 hp)
  linarith

/-- More votes are no worse where a vote is more often right than wrong. -/
theorem eval_majority_mono {n n' : ℕ} (hn : 1 ≤ n) (h : n ≤ n') {p : L} (half : 1 / 2 ≤ p)
    (hp' : p ≤ 1) : (majority L n).eval p ≤ (majority L n').eval p := by
  have hp : 0 ≤ p := le_trans (by norm_num) half
  have hadvantage := advantage_mono (by omega : (n - 1) / 2 ≤ (n' - 1) / 2)
    (complement_mul_nonneg hp hp')
  have hfactor : 0 ≤ 2 * p - 1 := by linarith
  rw [eval_majority n hn, eval_majority n' (hn.trans h)]
  exact add_le_add_right (mul_le_mul_of_nonneg_left hadvantage hfactor) p

theorem eval_majority_antitone {n n' : ℕ} (hn : 1 ≤ n) (h : n ≤ n') {p : L} (hp : 0 ≤ p)
    (half : p ≤ 1 / 2) : (majority L n').eval p ≤ (majority L n).eval p := by
  have hmono := eval_majority_mono hn h (by linarith : (1 / 2 : L) ≤ 1 - p) (sub_le_self 1 hp)
  rw [eval_majority_compl n hn, eval_majority_compl n' (hn.trans h)] at hmono
  linarith

end Values

/-! ## Advantage per vote -/

section PerVote

variable {L : Type} [Field L] [LinearOrder L] [IsStrictOrderedRing L]

def perVote (m : ℕ) (y : L) : L := advantage m y / (2 * m + 1)

/-- The sign of the step of `perVote` from `m` to `m + 1`. -/
def turning (m : ℕ) (y : L) : L := (2 * m + 1) * stepValue m y - 2 * advantage m y

theorem perVote_succ_sub (m : ℕ) (y : L) :
    perVote (m + 1) y - perVote m y = turning m y / ((2 * m + 1) * (2 * m + 3)) := by
  have hodd : (2 * m + 1 : L) ≠ 0 := by positivity
  have hnext : (2 * m + 3 : L) ≠ 0 := by positivity
  have hcast : (2 * ((m + 1 : ℕ) : L) + 1) = 2 * m + 3 := by
    push_cast
    ring
  rw [perVote, perVote, turning, advantage_succ, hcast]
  field_simp
  ring

theorem stepValue_pos (j : ℕ) {y : L} (hy : 0 < y) : 0 < stepValue j y := by
  have hchoose : 0 < (2 * j + 1).choose (j + 1) := Nat.choose_pos (by omega)
  exact mul_pos (by exact_mod_cast hchoose) (pow_pos hy (j + 1))

theorem stepValue_lt (j : ℕ) {y : L} (hy : 0 < y) (quarter : y ≤ 1 / 4) :
    stepValue (j + 1) y < stepValue j y := by
  have hcentral := Nat.succ_mul_centralBinom_succ (j + 1)
  rw [centralBinom_succ_eq, centralBinom_succ_eq] at hcentral
  have hchoose : ((j : L) + 2) * ((2 * (j + 1) + 1).choose (j + 2) : L) =
      2 * (2 * j + 3) * ((2 * j + 1).choose (j + 1) : L) := by
    have hnat : (j + 2) * (2 * (j + 1) + 1).choose (j + 2) =
        2 * (2 * j + 3) * (2 * j + 1).choose (j + 1) := by
      have hdouble : 2 * ((j + 2) * (2 * (j + 1) + 1).choose (j + 2)) =
          2 * (2 * (2 * j + 3) * (2 * j + 1).choose (j + 1)) := by
        calc 2 * ((j + 2) * (2 * (j + 1) + 1).choose (j + 2))
            = (j + 1 + 1) * (2 * (2 * (j + 1) + 1).choose (j + 1 + 1)) := by ring
          _ = 2 * (2 * (j + 1) + 1) * (2 * (2 * j + 1).choose (j + 1)) := hcentral
          _ = 2 * (2 * (2 * j + 3) * (2 * j + 1).choose (j + 1)) := by ring
      omega
    exact_mod_cast hnat
  have hpos := stepValue_pos j hy
  have hratio : ((j : L) + 2) * stepValue (j + 1) y = 2 * (2 * j + 3) * y * stepValue j y := by
    unfold stepValue
    calc ((j : L) + 2) * (((2 * (j + 1) + 1).choose (j + 1 + 1) : L) * y ^ (j + 1 + 1))
        = (((j : L) + 2) * ((2 * (j + 1) + 1).choose (j + 2) : L)) * y ^ (j + 1) * y := by ring
      _ = 2 * (2 * j + 3) * y * (((2 * j + 1).choose (j + 1) : L) * y ^ (j + 1)) := by
        rw [hchoose]
        ring
  have hsmall : 2 * (2 * j + 3) * y < (j : L) + 2 := by
    have hj : (0 : L) ≤ j := Nat.cast_nonneg j
    nlinarith
  have hscaled : ((j : L) + 2) * stepValue (j + 1) y < ((j : L) + 2) * stepValue j y := by
    rw [hratio]
    exact mul_lt_mul_of_pos_right hsmall hpos
  exact lt_of_mul_lt_mul_left hscaled (by positivity)

theorem turning_strictAnti {y : L} (hy : 0 < y) (quarter : y ≤ 1 / 4) :
    StrictAnti fun m => turning m y := by
  apply strictAnti_nat_of_succ_lt
  intro m
  have hstep := stepValue_lt m hy quarter
  have hm : (0 : L) ≤ m := Nat.cast_nonneg m
  change turning (m + 1) y < turning m y
  rw [turning, turning, advantage_succ]
  push_cast
  nlinarith

theorem perVote_le_succ_iff (m : ℕ) (y : L) :
    perVote m y ≤ perVote (m + 1) y ↔ 0 ≤ turning m y := by
  have hpos : (0 : L) < (2 * m + 1) * (2 * m + 3) := by positivity
  rw [← sub_nonneg, perVote_succ_sub, le_div_iff₀ hpos, zero_mul]

theorem perVote_succ_le_iff (m : ℕ) (y : L) :
    perVote (m + 1) y ≤ perVote m y ↔ turning m y ≤ 0 := by
  have hpos : (0 : L) < (2 * m + 1) * (2 * m + 3) := by positivity
  rw [← sub_nonpos, perVote_succ_sub, div_le_iff₀ hpos, zero_mul]

theorem perVote_le_of_rising {m : ℕ} {y : L} (rising : ∀ j < m, 0 ≤ turning j y) {k : ℕ}
    (h : k ≤ m) : perVote k y ≤ perVote m y := by
  induction m with
  | zero => rw [Nat.le_zero.mp h]
  | succ m ih =>
      rcases Nat.of_le_succ h with hle | rfl
      · have hrest := ih (fun j hj => rising j (by omega)) hle
        exact hrest.trans ((perVote_le_succ_iff m y).mpr (rising m (Nat.lt_succ_self m)))
      · exact le_refl _

/-- Where the turning value is zero, two sizes are equally good and no other is better. -/
theorem perVote_le_of_turning {m : ℕ} {y : L} (hy : 0 < y) (quarter : y ≤ 1 / 4)
    (h : turning m y = 0) (k : ℕ) : perVote k y ≤ perVote m y := by
  have hanti := (turning_strictAnti hy quarter).antitone
  rcases Nat.le_total k m with hkm | hmk
  · exact perVote_le_of_rising (fun j hj => h.ge.trans (hanti hj.le)) hkm
  · induction k, hmk using Nat.le_induction with
    | base => exact le_refl _
    | succ k hmk ih =>
        refine le_trans ((perVote_succ_le_iff k y).mpr ?_) ih
        exact (hanti hmk).trans h.le

/-- Two best sizes are neighbours, with the turning value zero between them. -/
theorem turning_of_best {a b : ℕ} {y : L} (hy : 0 < y) (quarter : y ≤ 1 / 4) (h : a < b)
    (besta : perVote (a + 1) y ≤ perVote a y) (bestb : perVote (b - 1) y ≤ perVote b y) :
    turning a y = 0 ∧ b = a + 1 := by
  obtain ⟨d, rfl⟩ : ∃ d, b = a + d + 1 := ⟨b - a - 1, by omega⟩
  rw [Nat.add_sub_cancel] at bestb
  have hfall := (perVote_succ_le_iff a y).mp besta
  have hrise := (perVote_le_succ_iff (a + d) y).mp bestb
  have hanti := turning_strictAnti hy quarter
  have hle := hanti.antitone (Nat.le_add_right a d)
  have hzero : turning a y = 0 := le_antisymm hfall (hrise.trans hle)
  have heq : turning (a + d) y = turning a y := le_antisymm hle (hzero.trans_le hrise)
  have hd := hanti.injective heq
  exact ⟨hzero, by omega⟩

end PerVote

/-! ## Better votes -/

/-- A jury gets better with its votes. -/
theorem eval_majority_monotoneOn (n : ℕ) (hn : 1 ≤ n) :
    MonotoneOn (fun p : ℝ => (majority ℝ n).eval p) (Set.Icc 0 1) := by
  have hodd : ∀ m, MonotoneOn (fun p : ℝ => (majority ℝ (2 * m + 1)).eval p) (Set.Icc 0 1) := by
    intro m
    apply monotoneOn_of_deriv_nonneg (convex_Icc 0 1)
    · exact (majority ℝ (2 * m + 1)).differentiable.continuous.continuousOn
    · exact (majority ℝ (2 * m + 1)).differentiable.differentiableOn
    · intro p hp
      rw [interior_Icc] at hp
      have hderivative : derivative (majority ℝ (2 * m + 1)) =
          ((2 * m : ℕ) + 1) * bernsteinPolynomial ℝ (2 * m) m := by
        rw [majority_odd, derivative_atLeast (by omega)]
      have hterm := eval_bernstein_nonneg (2 * m) m hp.1.le hp.2.le
      rw [Polynomial.deriv, hderivative, eval_mul]
      refine mul_nonneg ?_ hterm
      simp only [eval_add, eval_natCast, eval_one]
      positivity
  rcases Nat.even_or_odd n with ⟨m, hm⟩ | ⟨m, hm⟩
  · obtain ⟨d, rfl⟩ : ∃ d, m = d + 1 := ⟨m - 1, by omega⟩
    rw [hm, show d + 1 + (d + 1) = 2 * d + 2 by ring, majority_even]
    exact hodd d
  · rw [hm]
    exact hodd m

end ControlPlane.Lib.Jury
