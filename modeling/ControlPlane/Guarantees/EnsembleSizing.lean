import ControlPlane.Lib.Juries
import ControlPlane.Source.Ensemble.Sizing
import Mathlib.Analysis.SpecialFunctions.Log.Basic
import Mathlib.Data.Nat.Choose.Cast

/-!
# Ensemble quality and the recommended size

Over the reals `condorcet_quality` is the majority polynomial of its jury, pulled towards
the accuracy of one agent by the correlation. The recommended size is the last one of
highest gain per agent. It is the smallest one exactly where no two sizes are equally good.
-/
namespace ControlPlane.Guarantees.EnsembleSizing

open Lib Lib.Jury Source.Ensemble

/-! ## Statement -/

noncomputable def realLogExp : LogExp ℝ := ⟨Real.log, Real.exp⟩

noncomputable def quality (n : ℕ) (p rho : ℝ) : ℝ := condorcetQuality realLogExp n p rho

structure CondorcetLaw (rho : ℝ) : Prop where
  even : ∀ m, 1 ≤ m → ∀ p ∈ Set.Icc (0 : ℝ) 1, quality (2 * m) p rho = quality (2 * m - 1) p rho
  rising : ∀ n n', 1 ≤ n → n ≤ n' → ∀ p ∈ Set.Icc (0 : ℝ) 1, 1 / 2 ≤ p →
    quality n p rho ≤ quality n' p rho
  falling : ∀ n n', 1 ≤ n → n ≤ n' → ∀ p ∈ Set.Icc (0 : ℝ) 1, p ≤ 1 / 2 →
    quality n' p rho ≤ quality n p rho
  symmetric : ∀ n, 1 ≤ n → ∀ p ∈ Set.Icc (0 : ℝ) 1,
    quality n (1 - p) rho = 1 - quality n p rho
  better : ∀ n, 1 ≤ n → MonotoneOn (fun p => quality n p rho) (Set.Icc 0 1)
  /-- The clamps are reached behind the early returns for accuracies 0 and 1. -/
  innerClamp : ∀ n, 1 ≤ n → ∀ p ∈ Set.Ioo (0 : ℝ) 1,
    clamp 0 1 (votesSum realLogExp n p) = votesSum realLogExp n p
  outerClamp : ∀ n, 1 ≤ n → ∀ p ∈ Set.Ioo (0 : ℝ) 1,
    clamp 0 1 (correlatedQuality (votesSum realLogExp n p) p rho) =
      correlatedQuality (votesSum realLogExp n p) p rho

/-! ## The sum of votes is the majority polynomial -/

theorem clamp_of_mem {K : Type} [Field K] [LinearOrder K] {lo hi v : K} (hlo : lo ≤ v)
    (hhi : v ≤ hi) : clamp lo hi v = v := by
  rw [clamp, min_eq_left hhi, max_eq_right hlo]

theorem logGamma_eq (n : ℕ) : logGamma realLogExp (n + 1) = Real.log (n.factorial : ℝ) := by
  have hsum : ((List.range' 1 n).map fun i : ℕ => Real.log (i : ℝ)).sum =
      Real.log (n.factorial : ℝ) := by
    induction n with
    | zero => simp
    | succ n ih =>
        have hfactorial : (n.factorial : ℝ) ≠ 0 := by exact_mod_cast n.factorial_ne_zero
        have hsucc : ((n + 1 : ℕ) : ℝ) ≠ 0 := by exact_mod_cast Nat.succ_ne_zero n
        rw [List.range'_1_concat, List.map_append, List.sum_append, ih, Nat.factorial_succ,
          Nat.cast_mul, Real.log_mul hsucc hfactorial]
        simp [add_comm]
  unfold logGamma
  split
  · next hsmall =>
    have hzero : n = 0 := by omega
    simp [hzero]
  · exact hsum

theorem logBinomCoeff_eq {n k : ℕ} (h : k ≤ n) :
    logBinomCoeff realLogExp n k = Real.log (n.choose k : ℝ) := by
  unfold logBinomCoeff
  split
  · next hend =>
    rcases hend with rfl | rfl
    · simp
    · simp
  · have hn : (n.factorial : ℝ) ≠ 0 := by exact_mod_cast n.factorial_ne_zero
    have hk : (k.factorial : ℝ) ≠ 0 := by exact_mod_cast k.factorial_ne_zero
    have hd : ((n - k).factorial : ℝ) ≠ 0 := by exact_mod_cast (n - k).factorial_ne_zero
    rw [logGamma_eq, logGamma_eq, logGamma_eq, Nat.cast_choose ℝ h, ← Real.log_div hn hk,
      ← Real.log_div (div_ne_zero hn hk) hd, div_div]

theorem votesTerm_eq {n k : ℕ} (h : k ≤ n) {p : ℝ} (hp : 0 < p) (hp' : p < 1) :
    votesTerm realLogExp n p k = (bernsteinPolynomial ℝ n k).eval p := by
  have hq : 0 < 1 - p := sub_pos.mpr hp'
  have hchoose : (0 : ℝ) < n.choose k := by exact_mod_cast Nat.choose_pos h
  have hlog : ((n - k : ℕ) : ℝ) * Real.log (1 - p) +
      ((k : ℝ) * Real.log p + Real.log (n.choose k : ℝ)) =
        Real.log ((n.choose k : ℝ) * p ^ k * (1 - p) ^ (n - k)) := by
    rw [Real.log_mul (by positivity) (by positivity), Real.log_mul (by positivity) (by positivity),
      Real.log_pow, Real.log_pow]
    ring
  unfold votesTerm
  rw [logBinomCoeff_eq h]
  change Real.exp _ = _
  change Real.exp (((n - k : ℕ) : ℝ) * Real.log (1 - p) +
    ((k : ℝ) * Real.log p + Real.log (n.choose k : ℝ))) = _
  rw [hlog, Real.exp_log (by positivity)]
  simp [bernsteinPolynomial]

theorem votesSum_eq {n : ℕ} {p : ℝ} (hp : 0 < p) (hp' : p < 1) :
    votesSum realLogExp n p = (majority ℝ n).eval p := by
  have hsum : ((List.range' (n / 2 + 1) (n + 1 - (n / 2 + 1))).map
      (votesTerm realLogExp n p)).sum = (atLeast ℝ n (n / 2 + 1)).eval p := by
    rw [atLeast, Polynomial.eval_finsetSum]
    change _ = ((List.range' (n / 2 + 1) (n + 1 - (n / 2 + 1))).map
      fun k => (bernsteinPolynomial ℝ n k).eval p).sum
    congr 1
    apply List.map_congr_left
    intro k hk
    rw [List.mem_range'_1] at hk
    exact votesTerm_eq (by omega) hp hp'
  unfold votesSum
  dsimp only
  rw [hsum, majority, Polynomial.eval_add]
  by_cases heven : n % 2 = 0
  · rw [if_pos heven, if_pos (Nat.even_iff.mpr heven), votesTerm_eq (by omega) hp hp']
    simp
  · rw [if_neg heven, if_neg (fun h => heven (Nat.even_iff.mp h))]
    simp

/-! ## Quality -/

theorem advantage_zero_right {K : Type} [Field K] (m : ℕ) : advantage m (0 : K) = 0 := by
  refine Finset.sum_eq_zero fun j _ => ?_
  rw [stepValue, zero_pow (Nat.succ_ne_zero j), mul_zero]

theorem complement_mul_le_quarter (p : ℝ) : p * (1 - p) ≤ 1 / 4 := by
  nlinarith [sq_nonneg (2 * p - 1)]

/-- The pull of the correlation keeps a value between 0 and 1. -/
theorem correlatedQuality_mem {q p rho : ℝ} (hq : q ∈ Set.Icc (0 : ℝ) 1)
    (hp : p ∈ Set.Icc (0 : ℝ) 1) (hrho : rho ∈ Set.Icc (0 : ℝ) 1) :
    correlatedQuality q p rho ∈ Set.Icc (0 : ℝ) 1 := by
  have hmix : correlatedQuality q p rho = q * (1 - rho) + p * rho := by
    unfold correlatedQuality
    ring
  have hkeep : 0 ≤ 1 - rho := sub_nonneg.mpr hrho.2
  rw [hmix]
  constructor
  · exact add_nonneg (mul_nonneg hq.1 hkeep) (mul_nonneg hp.1 hrho.1)
  · have hleft := mul_le_mul_of_nonneg_right hq.2 hkeep
    have hright := mul_le_mul_of_nonneg_right hp.2 hrho.1
    linarith

theorem votesSum_mem {n : ℕ} (hn : 1 ≤ n) {p : ℝ} (hp : 0 < p) (hp' : p < 1) :
    votesSum realLogExp n p ∈ Set.Icc (0 : ℝ) 1 := by
  rw [votesSum_eq hp hp']
  exact ⟨eval_majority_nonneg n hp.le hp'.le, eval_majority_le_one n hn hp.le hp'.le⟩

theorem eval_majority_zero {n : ℕ} (hn : 1 ≤ n) : (majority ℝ n).eval 0 = 0 := by
  rw [eval_majority n hn, zero_mul, advantage_zero_right]
  ring

theorem eval_majority_top {n : ℕ} (hn : 1 ≤ n) : (majority ℝ n).eval 1 = 1 := by
  rw [eval_majority n hn, sub_self, mul_zero, advantage_zero_right]
  ring

/-- No branch and no clamp of `condorcet_quality` changes the formula. -/
theorem quality_eq {n : ℕ} (hn : 1 ≤ n) {p rho : ℝ} (hp : p ∈ Set.Icc (0 : ℝ) 1)
    (hrho : rho ∈ Set.Icc (0 : ℝ) 1) :
    quality n p rho = correlatedQuality ((majority ℝ n).eval p) p rho := by
  unfold quality condorcetQuality
  rw [clamp_of_mem hp.1 hp.2, clamp_of_mem hrho.1 hrho.2]
  dsimp only
  split_ifs with hzero hone hnone hsingle
  · have hp0 : p = 0 := le_antisymm hzero hp.1
    rw [hp0, eval_majority_zero hn, correlatedQuality]
    ring
  · have hp1 : p = 1 := le_antisymm hp.2 hone
    rw [hp1, eval_majority_top hn, correlatedQuality]
    ring
  · omega
  · rw [hsingle, majority_one, Polynomial.eval_X, correlatedQuality]
    ring
  · have hpos : 0 < p := not_le.mp hzero
    have hlt : p < 1 := not_le.mp hone
    have hsum := votesSum_mem hn hpos hlt
    have hresult := correlatedQuality_mem hsum hp hrho
    rw [clamp_of_mem hsum.1 hsum.2, clamp_of_mem hresult.1 hresult.2, votesSum_eq hpos hlt]

theorem correlatedQuality_mono {q q' p rho : ℝ} (h : q ≤ q') (hrho : rho ≤ 1) :
    correlatedQuality q p rho ≤ correlatedQuality q' p rho := by
  unfold correlatedQuality
  have hkeep : 0 ≤ 1 - rho := sub_nonneg.mpr hrho
  have hscaled := mul_le_mul_of_nonneg_right (sub_le_sub_right h p) hkeep
  linarith

/-! ## The Condorcet law -/

theorem condorcetQuality_law {rho : ℝ} (hrho : rho ∈ Set.Icc (0 : ℝ) 1) : CondorcetLaw rho := by
  constructor
  case even =>
    intro m hm p hp
    obtain ⟨d, rfl⟩ : ∃ d, m = d + 1 := ⟨m - 1, by omega⟩
    rw [quality_eq (by omega) hp hrho, quality_eq (by omega) hp hrho,
      show 2 * (d + 1) = 2 * d + 2 by ring, majority_even,
      show 2 * d + 2 - 1 = 2 * d + 1 by omega]
  case rising =>
    intro n n' hn h p hp half
    rw [quality_eq hn hp hrho, quality_eq (hn.trans h) hp hrho]
    exact correlatedQuality_mono (eval_majority_mono hn h half hp.2) hrho.2
  case falling =>
    intro n n' hn h p hp half
    rw [quality_eq hn hp hrho, quality_eq (hn.trans h) hp hrho]
    exact correlatedQuality_mono (eval_majority_antitone hn h hp.1 half) hrho.2
  case symmetric =>
    intro n hn p hp
    have hcompl : 1 - p ∈ Set.Icc (0 : ℝ) 1 := ⟨sub_nonneg.mpr hp.2, sub_le_self 1 hp.1⟩
    rw [quality_eq hn hcompl hrho, quality_eq hn hp hrho, eval_majority_compl n hn]
    unfold correlatedQuality
    ring
  case better =>
    intro n hn p hp p' hp' h
    have hmajority := eval_majority_monotoneOn n hn hp hp' h
    have hkeep : 0 ≤ 1 - rho := sub_nonneg.mpr hrho.2
    have hscaled := mul_le_mul_of_nonneg_right hmajority hkeep
    have hpulled := mul_le_mul_of_nonneg_right h hrho.1
    change quality n p rho ≤ quality n p' rho
    rw [quality_eq hn hp hrho, quality_eq hn hp' hrho]
    unfold correlatedQuality
    dsimp only at hscaled
    linarith
  case innerClamp =>
    intro n hn p hp
    have hsum := votesSum_mem hn hp.1 hp.2
    exact clamp_of_mem hsum.1 hsum.2
  case outerClamp =>
    intro n hn p hp
    have hresult := correlatedQuality_mem (votesSum_mem hn hp.1 hp.2) (Set.Ioo_subset_Icc_self hp)
      hrho
    exact clamp_of_mem hresult.1 hresult.2

theorem condorcetQuality_law_half : CondorcetLaw (1 / 2) :=
  condorcetQuality_law ⟨by norm_num, by norm_num⟩

/-! ## The recommended size -/

/-- The smallest of the sizes from 1 to `maxN` with the highest score. -/
structure SmallestBest (score : ℕ → ℝ) (maxN n : ℕ) : Prop where
  pos : 1 ≤ n
  le : n ≤ maxN
  best : ∀ m, 1 ≤ m → m ≤ maxN → score m ≤ score n
  first : ∀ m, 1 ≤ m → m < n → score m < score n

structure Recommends (e : EnsembleCalibration ℝ) (maxN : ℕ) : Prop where
  smallest : SmallestBest (sizeScore realLogExp e.pMean e.rhoMean) maxN e.nOptimal
  odd : e.nOptimal % 2 = 1
  single : (∀ m, 1 ≤ m → m ≤ maxN → sizeScore realLogExp e.pMean e.rhoMean m ≤ 0) →
    e.nOptimal = 1

/-- There is no choice of size, or the accuracy is better than a guess, not perfect, and not
one of those at which two neighbouring odd sizes gain the same per agent. -/
def OneBestSize (p : ℝ) (maxN : ℕ) : Prop :=
  maxN = 1 ∨ 3 ≤ maxN ∧ 1 / 2 < p ∧ p < 1 ∧
    ∀ m, 2 * m + 3 ≤ maxN →
      (2 * m + 1) * stepValue m (p * (1 - p)) ≠ 2 * advantage m (p * (1 - p))

/-! ## Scores -/

section Scores

variable {p rho : ℝ}

theorem sizeScore_eq (hp : p ∈ Set.Icc (1 / 2 : ℝ) 1) (hrho : rho ∈ Set.Icc (0 : ℝ) 1) {n : ℕ}
    (hn : 1 ≤ n) :
    sizeScore realLogExp p rho n =
      (1 - rho) * (2 * p - 1) * (advantage ((n - 1) / 2) (p * (1 - p)) / n) := by
  have hp' : p ∈ Set.Icc (0 : ℝ) 1 := ⟨le_trans (by norm_num) hp.1, hp.2⟩
  have hquality := quality_eq hn hp' hrho
  unfold quality at hquality
  rw [sizeScore, hquality, eval_majority n hn, correlatedQuality]
  ring

theorem sizeScore_odd (hp : p ∈ Set.Icc (1 / 2 : ℝ) 1) (hrho : rho ∈ Set.Icc (0 : ℝ) 1) (m : ℕ) :
    sizeScore realLogExp p rho (2 * m + 1) =
      (1 - rho) * (2 * p - 1) * perVote m (p * (1 - p)) := by
  have hhalf : (2 * m + 1 - 1) / 2 = m := by omega
  rw [sizeScore_eq hp hrho (by omega), hhalf, perVote]
  push_cast
  rfl

theorem sizeScore_even (hp : p ∈ Set.Icc (1 / 2 : ℝ) 1) (hrho : rho ∈ Set.Icc (0 : ℝ) 1) (m : ℕ) :
    sizeScore realLogExp p rho (2 * m + 2) =
      (1 - rho) * (2 * p - 1) * (advantage m (p * (1 - p)) / (2 * m + 2)) := by
  have hhalf : (2 * m + 2 - 1) / 2 = m := by omega
  rw [sizeScore_eq hp hrho (by omega), hhalf]
  push_cast
  rfl

/-- An even size shares the gain of the odd one below it among one agent more. -/
theorem sizeScore_even_le (hp : p ∈ Set.Icc (1 / 2 : ℝ) 1) (hrho : rho ∈ Set.Icc (0 : ℝ) 1)
    (m : ℕ) :
    sizeScore realLogExp p rho (2 * m + 2) ≤ sizeScore realLogExp p rho (2 * m + 1) := by
  have hnonneg := advantage_nonneg m
    (complement_mul_nonneg (le_trans (by norm_num) hp.1) hp.2)
  have hfactor : 0 ≤ (1 - rho) * (2 * p - 1) :=
    mul_nonneg (sub_nonneg.mpr hrho.2) (by linarith [hp.1])
  rw [sizeScore_even hp hrho, sizeScore_odd hp hrho, perVote]
  refine mul_le_mul_of_nonneg_left ?_ hfactor
  exact div_le_div_of_nonneg_left hnonneg (by positivity) (by linarith)

/-- Where the agents are perfect or guess, every size scores zero. -/
theorem sizeScore_flat (hp : p ∈ Set.Icc (1 / 2 : ℝ) 1) (hrho : rho ∈ Set.Icc (0 : ℝ) 1)
    (flat : ¬(1 / 2 < p ∧ p < 1)) {n : ℕ} (hn : 1 ≤ n) :
    sizeScore realLogExp p rho n = 0 := by
  rw [sizeScore_eq hp hrho hn]
  rcases hp.1.eq_or_lt with hhalf | hhalf
  · rw [← hhalf]
    ring
  · have hone : p = 1 := le_antisymm hp.2 (not_lt.mp fun h => flat ⟨hhalf, h⟩)
    rw [hone, sub_self, mul_zero, advantage_zero_right, zero_div, mul_zero]

/-- An ensemble of these agents can gain something. -/
structure Improvable (p rho : ℝ) : Prop where
  half : 1 / 2 < p
  imperfect : p < 1
  nonneg : 0 ≤ rho
  decorrelated : rho < 1

namespace Improvable

variable (h : Improvable p rho)

include h

theorem accuracy : p ∈ Set.Icc (1 / 2 : ℝ) 1 := ⟨h.half.le, h.imperfect.le⟩

theorem correlation : rho ∈ Set.Icc (0 : ℝ) 1 := ⟨h.nonneg, h.decorrelated.le⟩

theorem factor_pos : 0 < (1 - rho) * (2 * p - 1) :=
  mul_pos (sub_pos.mpr h.decorrelated) (by linarith [h.half])

theorem complement_mul_pos : 0 < p * (1 - p) :=
  mul_pos (by linarith [h.half]) (sub_pos.mpr h.imperfect)

theorem score_three_pos : 0 < sizeScore realLogExp p rho 3 := by
  have hy := h.complement_mul_pos
  have hscore := sizeScore_odd h.accuracy h.correlation 1
  rw [show 2 * 1 + 1 = 3 by norm_num] at hscore
  rw [hscore]
  apply mul_pos h.factor_pos
  rw [perVote, advantage_succ]
  have hstep := stepValue_pos 0 hy
  have hfirst : advantage 0 (p * (1 - p)) = 0 := Finset.sum_range_zero _
  rw [hfirst, zero_add]
  positivity

/-- Among at least three sizes a best one is odd. -/
theorem exists_odd_of_best {maxN n : ℕ} (many : 3 ≤ maxN) (hn : 1 ≤ n) (le : n ≤ maxN)
    (best : ∀ m, 1 ≤ m → m ≤ maxN →
      sizeScore realLogExp p rho m ≤ sizeScore realLogExp p rho n) :
    ∃ m, n = 2 * m + 1 := by
  by_contra hodd
  obtain ⟨m, rfl⟩ : ∃ m, n = 2 * m + 2 := by
    rcases Nat.even_or_odd n with ⟨k, hk⟩ | ⟨k, hk⟩
    · exact ⟨k - 1, by omega⟩
    · exact absurd ⟨k, hk⟩ hodd
  have hpos := h.score_three_pos.trans_le (best 3 (by norm_num) many)
  have hless := best (2 * m + 1) (by omega) (by omega)
  rw [sizeScore_even h.accuracy h.correlation] at hpos hless
  rw [sizeScore_odd h.accuracy h.correlation, perVote] at hless
  -- the gain is positive, so one agent more makes its share smaller
  have hshare := pos_of_mul_pos_right hpos h.factor_pos.le
  have hgain : 0 < advantage m (p * (1 - p)) := by
    rw [div_pos_iff_of_pos_right (by positivity)] at hshare
    exact hshare
  have hdrop : advantage m (p * (1 - p)) / (2 * m + 2) < advantage m (p * (1 - p)) / (2 * m + 1) :=
    div_lt_div_of_pos_left hgain (by positivity) (by linarith)
  have hscaled := mul_lt_mul_of_pos_left hdrop h.factor_pos
  linarith

theorem perVote_le_of_score_le {a b : ℕ}
    (le : sizeScore realLogExp p rho (2 * a + 1) ≤ sizeScore realLogExp p rho (2 * b + 1)) :
    perVote a (p * (1 - p)) ≤ perVote b (p * (1 - p)) := by
  rw [sizeScore_odd h.accuracy h.correlation, sizeScore_odd h.accuracy h.correlation] at le
  exact le_of_mul_le_mul_left le h.factor_pos

/-- Two best sizes are odd neighbours with a tie between them. -/
theorem tie_of_two_best {maxN n n' : ℕ} (many : 3 ≤ maxN) (hn : 1 ≤ n) (less : n < n')
    (le : n' ≤ maxN)
    (best : ∀ m, 1 ≤ m → m ≤ maxN →
      sizeScore realLogExp p rho m ≤ sizeScore realLogExp p rho n')
    (also : sizeScore realLogExp p rho n' ≤ sizeScore realLogExp p rho n) :
    ∃ m, 2 * m + 3 ≤ maxN ∧ turning m (p * (1 - p)) = 0 := by
  obtain ⟨b, rfl⟩ := h.exists_odd_of_best many (by omega) le best
  obtain ⟨a, rfl⟩ := h.exists_odd_of_best many hn (by omega)
    fun m hm hm' => (best m hm hm').trans also
  have hrise := h.perVote_le_of_score_le
    (best (2 * (b - 1) + 1) (by omega) (by omega))
  have hfall := h.perVote_le_of_score_le
    ((best (2 * (a + 1) + 1) (by omega) (by omega)).trans also)
  have hturning := turning_of_best h.complement_mul_pos (complement_mul_le_quarter p)
    (by omega : a < b) hfall hrise
  exact ⟨a, by omega, hturning.1⟩

/-- Where two neighbouring odd sizes tie, both are best. -/
theorem best_of_tie {m : ℕ} (tie : turning m (p * (1 - p)) = 0) {n : ℕ} (hn : 1 ≤ n) :
    sizeScore realLogExp p rho n ≤ sizeScore realLogExp p rho (2 * m + 1) ∧
      sizeScore realLogExp p rho (2 * m + 1) = sizeScore realLogExp p rho (2 * (m + 1) + 1) := by
  have hodd : ∀ k, sizeScore realLogExp p rho (2 * k + 1) ≤
      sizeScore realLogExp p rho (2 * m + 1) := by
    intro k
    rw [sizeScore_odd h.accuracy h.correlation, sizeScore_odd h.accuracy h.correlation]
    exact mul_le_mul_of_nonneg_left
      (perVote_le_of_turning h.complement_mul_pos (complement_mul_le_quarter p) tie k)
      h.factor_pos.le
  have hsame : perVote (m + 1) (p * (1 - p)) = perVote m (p * (1 - p)) := by
    rw [← sub_eq_zero, perVote_succ_sub, tie, zero_div]
  constructor
  · rcases Nat.even_or_odd n with ⟨k, hk⟩ | ⟨k, hk⟩
    · obtain ⟨d, rfl⟩ : ∃ d, k = d + 1 := ⟨k - 1, by omega⟩
      rw [hk, show d + 1 + (d + 1) = 2 * d + 2 by ring]
      exact (sizeScore_even_le h.accuracy h.correlation d).trans (hodd d)
    · rw [hk]
      exact hodd k
  · rw [sizeScore_odd h.accuracy h.correlation, sizeScore_odd h.accuracy h.correlation, hsame]

end Improvable

end Scores

/-! ## The guarantee -/

section Calibration

variable {p rho : ℝ} {maxN n : ℕ}

/-- Of several best sizes the last one is taken, which is then not the smallest. -/
theorem eq_one_of_flat (last : LastBest (sizeScore realLogExp p rho) maxN n)
    (smallest : SmallestBest (sizeScore realLogExp p rho) maxN n) (h : 1 ≤ maxN)
    (flat : ∀ m, 1 ≤ m → m ≤ maxN → sizeScore realLogExp p rho m = 0) : maxN = 1 := by
  by_contra hmany
  have hn := flat n last.pos last.le
  rcases Nat.lt_or_ge 1 n with hlt | hle
  · have hfirst := smallest.first 1 (Nat.le_refl 1) hlt
    rw [hn, flat 1 (Nat.le_refl 1) h] at hfirst
    exact lt_irrefl _ hfirst
  · have hlater := last.last maxN (by omega) (Nat.le_refl maxN)
    rw [hn, flat maxN h (Nat.le_refl maxN)] at hlater
    exact lt_irrefl _ hlater

theorem oneBestSize_of_smallest (hp : p ∈ Set.Icc (1 / 2 : ℝ) 1)
    (hrho : rho ∈ Set.Ico (0 : ℝ) 1) (h : 1 ≤ maxN)
    (last : LastBest (sizeScore realLogExp p rho) maxN n)
    (smallest : SmallestBest (sizeScore realLogExp p rho) maxN n) : OneBestSize p maxN := by
  have hr : rho ∈ Set.Icc (0 : ℝ) 1 := Set.Ico_subset_Icc_self hrho
  by_cases hgain : 1 / 2 < p ∧ p < 1
  · have himprovable : Improvable p rho := ⟨hgain.1, hgain.2, hrho.1, hrho.2⟩
    rcases Nat.lt_or_ge maxN 3 with hfew | hmany
    · left
      -- one and two agents score zero
      refine eq_one_of_flat last smallest h fun m hm hm' => ?_
      have hhalf : (m - 1) / 2 = 0 := by omega
      have hnone : advantage 0 (p * (1 - p)) = 0 := Finset.sum_range_zero _
      rw [sizeScore_eq hp hr hm, hhalf, hnone, zero_div, mul_zero]
    · refine Or.inr ⟨hmany, hgain.1, hgain.2, ?_⟩
      intro m hm heq
      have htie : turning m (p * (1 - p)) = 0 := sub_eq_zero.mpr heq
      obtain ⟨hbest, hsame⟩ := himprovable.best_of_tie htie last.pos
      rcases Nat.lt_or_ge n (2 * (m + 1) + 1) with hlt | hge
      · have hlater := last.last (2 * (m + 1) + 1) hlt (by omega)
        rw [← hsame] at hlater
        exact absurd hbest (not_le.mpr hlater)
      · have hfirst := smallest.first (2 * m + 1) (by omega) (by omega)
        exact absurd hbest (not_le.mpr hfirst)
  · exact Or.inl (eq_one_of_flat last smallest h fun m hm _ => sizeScore_flat hp hr hgain hm)

theorem smallest_of_oneBestSize (hrho : rho ∈ Set.Ico (0 : ℝ) 1)
    (last : LastBest (sizeScore realLogExp p rho) maxN n) (one : OneBestSize p maxN) :
    SmallestBest (sizeScore realLogExp p rho) maxN n := by
  refine ⟨last.pos, last.le, last.best, ?_⟩
  intro m hm hlt
  rcases one with rfl | ⟨hmany, hhalf, himperfect, huntied⟩
  · have := last.le
    omega
  · by_contra hnot
    have himprovable : Improvable p rho := ⟨hhalf, himperfect, hrho.1, hrho.2⟩
    obtain ⟨k, hk, htie⟩ := himprovable.tie_of_two_best hmany hm hlt last.le last.best
      (not_lt.mp hnot)
    exact huntied k hk (sub_eq_zero.mp htie)

theorem calibrated_recommends_iff (basis : PredictionBasis) (hp : p ∈ Set.Icc (1 / 2 : ℝ) 1)
    (hrho : rho ∈ Set.Ico (0 : ℝ) 1) (h : 1 ≤ maxN) :
    Recommends (calibrated realLogExp basis p rho maxN) maxN ↔ OneBestSize p maxN := by
  have last := calibrated_lastBest realLogExp basis p rho h
  constructor
  · intro hrecommends
    exact oneBestSize_of_smallest hp hrho h last hrecommends.smallest
  · intro one
    refine ⟨smallest_of_oneBestSize hrho last one, ?_, ?_⟩
    · rcases one with rfl | ⟨hmany, hhalf, himperfect, _⟩
      · have hle := last.le
        have hpos := last.pos
        omega
      · obtain ⟨m, hm⟩ := Improvable.exists_odd_of_best ⟨hhalf, himperfect, hrho.1, hrho.2⟩
          hmany last.pos last.le last.best
        omega
    · intro hnone
      rcases one with rfl | ⟨hmany, hhalf, himperfect, _⟩
      · exact Nat.le_antisymm last.le last.pos
      · have hthree := Improvable.score_three_pos ⟨hhalf, himperfect, hrho.1, hrho.2⟩
        exact absurd (hnone 3 (by norm_num) hmany) (not_le.mpr hthree)

theorem clamp_mem {lo hi : ℝ} (h : lo ≤ hi) (v : ℝ) : clamp lo hi v ∈ Set.Icc lo hi :=
  ⟨le_max_left _ _, max_le h (min_le_right _ _)⟩

/-- The correlation of an admitted Common Ground is below 1. -/
theorem proxyCorrelation_mem (cg : ℝ) : clamp 0 1 (1 - clamp epsilon 1 cg) ∈ Set.Ico (0 : ℝ) 1 := by
  have hepsilon : (0 : ℝ) < epsilon := by
    unfold epsilon
    positivity
  have hsmall : (epsilon : ℝ) ≤ 1 := by
    unfold epsilon
    norm_num
  have hcg := clamp_mem hsmall cg
  rw [clamp_of_mem (by linarith [hcg.2]) (by linarith [hcg.1])]
  exact ⟨by linarith [hcg.2], by linarith [hcg.1]⟩

theorem proxyAccuracy_eq (cg : ℝ) :
    clamp (1 / 2) 1 (1 / 2 + clamp epsilon 1 cg / 2) = 1 / 2 + clamp epsilon 1 cg / 2 := by
  have hsmall : (epsilon : ℝ) ≤ 1 := by
    unfold epsilon
    norm_num
  have hpos : (0 : ℝ) ≤ epsilon := by
    unfold epsilon
    positivity
  have hcg := clamp_mem hsmall cg
  exact clamp_of_mem (by linarith [hcg.1]) (by linarith [hcg.2])

end Calibration

theorem ensembleCalibration_recommends_iff {maxN : ℕ} (h : 1 ≤ maxN) :
    (∀ cg, Recommends (.fromCgMean realLogExp cg maxN) maxN ↔
      OneBestSize (1 / 2 + clamp epsilon 1 cg / 2) maxN) ∧
    (∀ p cg, Recommends (.fromMeasuredP realLogExp p cg maxN) maxN ↔
      OneBestSize (clamp (1 / 2) 1 p) maxN) ∧
    (∀ p rho, Recommends (.fromEmpirical realLogExp p rho maxN) maxN ↔
      OneBestSize (clamp (1 / 2) 1 p) maxN) := by
  have hmax : max maxN 1 = maxN := max_eq_left h
  have hinterval : (1 / 2 : ℝ) ≤ 1 := by norm_num
  refine ⟨?_, ?_, ?_⟩
  · intro cg
    have hp := clamp_mem hinterval (1 / 2 + clamp epsilon 1 cg / 2)
    have hiff := calibrated_recommends_iff .heuristic hp (proxyCorrelation_mem cg) h
    rw [EnsembleCalibration.fromCgMean, hmax]
    rw [proxyAccuracy_eq] at hiff ⊢
    exact hiff
  · intro p cg
    rw [EnsembleCalibration.fromMeasuredP, hmax]
    exact calibrated_recommends_iff .empirical (clamp_mem hinterval p) (proxyCorrelation_mem cg) h
  · intro p rho
    have hupper : (rhoUpperClamp : ℝ) < 1 := by
      unfold rhoUpperClamp
      norm_num
    have hrho := clamp_mem (by unfold rhoUpperClamp; norm_num : (0 : ℝ) ≤ rhoUpperClamp) rho
    rw [EnsembleCalibration.fromEmpirical, hmax]
    exact calibrated_recommends_iff .empirical (clamp_mem hinterval p)
      ⟨hrho.1, hrho.2.trans_lt hupper⟩ h

theorem nine_recommends_iff :
    (∀ cg, Recommends (.fromCgMean realLogExp cg 9) 9 ↔
      OneBestSize (1 / 2 + clamp epsilon 1 cg / 2) 9) ∧
    (∀ p cg, Recommends (.fromMeasuredP realLogExp p cg 9) 9 ↔
      OneBestSize (clamp (1 / 2) 1 p) 9) ∧
    (∀ p rho, Recommends (.fromEmpirical realLogExp p rho 9) 9 ↔
      OneBestSize (clamp (1 / 2) 1 p) 9) :=
  ensembleCalibration_recommends_iff (by norm_num)

/-- Perfect agents score zero at every size, and the largest size is recommended. -/
theorem perfectAgents_not_recommended :
    ¬Recommends (.fromEmpirical realLogExp 1 0 9) 9 := by
  have hone : clamp (1 / 2) 1 (1 : ℝ) = 1 := clamp_of_mem (by norm_num) (le_refl 1)
  have hzero : clamp 0 rhoUpperClamp (0 : ℝ) = 0 :=
    clamp_of_mem (le_refl 0) (by unfold rhoUpperClamp; norm_num)
  have hiff := @calibrated_recommends_iff 1 0 9 .empirical
    ⟨by norm_num, le_refl 1⟩ ⟨le_refl 0, zero_lt_one⟩ (by norm_num)
  unfold EnsembleCalibration.fromEmpirical
  dsimp only
  rw [hone, hzero, show max 9 1 = 9 by norm_num, hiff]
  intro hone
  rcases hone with hsingle | ⟨_, _, himperfect, _⟩
  · norm_num at hsingle
  · exact lt_irrefl _ himperfect

end ControlPlane.Guarantees.EnsembleSizing
