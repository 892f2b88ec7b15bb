import ControlPlane.Lib.RunLengths
import ControlPlane.Source.Autonomic.Drift
import Mathlib.Algebra.BigOperators.Field
import Mathlib.Analysis.SpecialFunctions.Log.Basic
import Mathlib.Analysis.SpecialFunctions.Pow.Real
import Mathlib.Analysis.SpecialFunctions.Trigonometric.Basic
import Mathlib.Tactic.FieldSimp

/-!
# Changepoint posterior

The changepoint detector keeps, in logarithms and one observation at a time, the posterior
probability of every run length: the share of all ways to cut the observations into runs of
less than `MAX_RUN_LENGTH` in which the open run is that long. The parameters it holds for a
run length are the conjugate posterior of exactly the last observations.
-/
namespace ControlPlane.Guarantees.ChangepointPosterior

open Lib.RunLengths Source.Ensemble Source.Autonomic

/-! ## Statement -/

/-- The functions of `f64` on the real numbers. -/
noncomputable def realMath : DriftMath ℝ where
  ln := Real.log
  exp := Real.exp
  sqrt := Real.sqrt
  sin := Real.sin
  pi := Real.pi

/-- The Normal-Inverse-Gamma posterior of the segment prior after a run, in one step. -/
def conjugatePosterior {K : Type} [Field K] (run : List K) : NigParams K :=
  let n : K := run.length
  let average := run.sum / n
  { mu := (1 / 2 + run.sum) / (1 + n)
    kappa := 1 + n
    alpha := 1 + n / 2
    beta := 1 / 10 + (run.map fun v => (v - average) ^ 2).sum / 2 +
      n * (average - 1 / 2) ^ 2 / (2 * (1 + n)) }

/-- The density of an observation after the earlier ones of its run. -/
noncomputable def density (run : List ℝ) (v : ℝ) : ℝ :=
  Real.exp ((conjugatePosterior run).predictiveLogProb realMath v)

/-- The weight of the histories whose open run is `r` long, with the newest observation first. -/
noncomputable def runWeight (hazard : ℝ) (xs : List ℝ) (r : ℕ) : ℝ :=
  joint density (1 - hazard) hazard maxRunLength xs r

noncomputable def totalWeight (hazard : ℝ) (xs : List ℝ) : ℝ :=
  total density (1 - hazard) hazard (Below maxRunLength) xs

/-- The detector after the observations, the newest first. -/
noncomputable def detector (hazard threshold : ℝ) (xs : List ℝ) : BocpdDetector ℝ :=
  xs.foldr (fun v d => d.observed realMath v) (.new hazard threshold)

/-- The states are the posterior of the run length. -/
structure IsPosterior (hazard : ℝ) (xs : List ℝ) (states : List (RunState ℝ)) : Prop where
  length_eq : states.length = min (xs.length + 1) maxRunLength
  nig_eq : ∀ r state, states[r]? = some state → state.nig = conjugatePosterior (xs.take r)
  mass_eq : ∀ r state, states[r]? = some state →
    Real.exp state.logMass = runWeight hazard xs r / totalWeight hazard xs
  sum_eq : (states.map fun state => Real.exp state.logMass).sum = 1

/-! ## Conjugate updates -/

section Conjugate

variable {K : Type} [Field K] [LinearOrder K] [IsStrictOrderedRing K]

/-- The squared distances from any centre, by the moments of the run. -/
theorem sum_sq_sub (run : List K) (c : K) :
    (run.map fun v => (v - c) ^ 2).sum =
      (run.map fun v => v ^ 2).sum - 2 * c * run.sum + (run.length : K) * c ^ 2 := by
  induction run with
  | nil => simp
  | cons v run ih =>
      simp only [List.map_cons, List.sum_cons, ih, List.length_cons, Nat.cast_succ]
      ring

/-- The scale parameter by the moments of the run. -/
theorem conjugatePosterior_beta (run : List K) :
    (conjugatePosterior run).beta = 1 / 10 +
      ((run.map fun v => v ^ 2).sum + 1 / 4 -
        (1 / 2 + run.sum) ^ 2 / (1 + (run.length : K))) / 2 := by
  simp only [conjugatePosterior, sum_sq_sub]
  rcases Nat.eq_zero_or_pos run.length with hzero | hpos
  · rw [List.length_eq_zero_iff] at hzero
    subst hzero
    norm_num
  · have hn : (run.length : K) ≠ 0 := Nat.cast_ne_zero.mpr hpos.ne'
    have hsucc : (1 : K) + run.length ≠ 0 := by positivity
    field_simp
    ring

theorem updateOne_conjugatePosterior (run : List K) (v : K) :
    (conjugatePosterior run).updateOne v = conjugatePosterior (v :: run) := by
  have hsucc : (1 : K) + run.length ≠ 0 := by positivity
  have hnext : (1 : K) + (run.length + 1) ≠ 0 := by positivity
  have hnext' : (1 : K) + run.length + 1 ≠ 0 := by positivity
  have hbeta := conjugatePosterior_beta (v :: run)
  rw [NigParams.updateOne, conjugatePosterior_beta]
  rw [show conjugatePosterior (v :: run) =
    { mu := (1 / 2 + (v + run.sum)) / (1 + (run.length + 1))
      kappa := 1 + (run.length + 1)
      alpha := 1 + (run.length + 1) / 2
      beta := (conjugatePosterior (v :: run)).beta } by
        simp only [conjugatePosterior, List.sum_cons, List.length_cons, Nat.cast_succ]]
  rw [hbeta]
  simp only [conjugatePosterior, List.map_cons, List.sum_cons, List.length_cons, Nat.cast_succ,
    NigParams.mk.injEq]
  refine ⟨?_, by ring, by ring, ?_⟩
  · field_simp
    ring
  · field_simp
    ring

theorem foldr_updateOne (run : List K) :
    run.foldr (fun v nig => nig.updateOne v) BocpdDetector.segmentPrior =
      conjugatePosterior run := by
  induction run with
  | nil => norm_num [conjugatePosterior, BocpdDetector.segmentPrior]
  | cons v run ih => rw [List.foldr_cons, ih, updateOne_conjugatePosterior]

end Conjugate

/-! ## Logarithms -/

theorem exp_logsumexp_pos {l : List ℝ} (h : l ≠ []) : 0 < (l.map Real.exp).sum := by
  apply List.sum_pos
  · intro v hv
    obtain ⟨lp, _, rfl⟩ := List.mem_map.mp hv
    exact Real.exp_pos lp
  · simpa only [ne_eq, List.map_eq_nil_iff] using h

/-- Taking out the greatest logarithm changes nothing. -/
theorem logsumexp_eq (l : List ℝ) (h : l ≠ []) :
    logsumexp realMath l h = Real.log (l.map Real.exp).sum := by
  simp only [logsumexp, realMath]
  generalize l.tail.foldl max (l.head h) = greatest
  have hscaled : (l.map fun lp => Real.exp (lp - greatest)).sum =
      (l.map Real.exp).sum * Real.exp (-greatest) := by
    rw [← List.sum_map_mul_right]
    simp only [sub_eq_add_neg, Real.exp_add]
  rw [hscaled, Real.log_mul (exp_logsumexp_pos h).ne' (Real.exp_pos _).ne', Real.log_exp]
  ring

theorem sum_map_range (n : ℕ) (f : ℕ → ℝ) :
    ((List.range n).map f).sum = ∑ i ∈ Finset.range n, f i := by
  induction n with
  | zero => rfl
  | succ n ih => rw [List.sum_range_succ, Finset.sum_range_succ, ih]

/-! ## Weights of run lengths -/

section Weights

variable {hazard : ℝ}

/-- How many run lengths have a state. -/
def stateCount (xs : List ℝ) : ℕ := min (xs.length + 1) maxRunLength

theorem density_pos (run : List ℝ) (v : ℝ) : 0 < density run v := Real.exp_pos _

theorem maxRunLength_pos : 0 < maxRunLength := by decide

theorem runWeight_pos (pos : 0 < hazard) (lt : hazard < 1) {xs : List ℝ} {r : ℕ}
    (h : r < stateCount xs) : 0 < runWeight hazard xs r := by
  obtain ⟨hlength, hcap⟩ := lt_min_iff.mp h
  exact joint_pos density_pos (sub_pos.mpr lt) pos hcap (Nat.le_of_lt_succ hlength)

theorem totalWeight_pos (pos : 0 < hazard) (lt : hazard < 1) (xs : List ℝ) :
    0 < totalWeight hazard xs :=
  total_pos density_pos (sub_pos.mpr lt) pos (openFor 0 xs.length)
    (by rw [length_openFor, Nat.zero_add]) (below_openFor maxRunLength_pos _)

/-- A run length without a state has no weight. -/
theorem sum_stateCount (xs : List ℝ) (f : ℕ → ℝ) :
    ∑ r ∈ Finset.range (stateCount xs), f r * runWeight hazard xs r =
      ∑ r ∈ Finset.range maxRunLength, f r * runWeight hazard xs r := by
  apply Finset.sum_subset
  · exact Finset.range_mono (Nat.min_le_right _ _)
  · intro r hr hnot
    have hlength : xs.length < r := by
      rw [Finset.mem_range, stateCount, lt_min_iff] at hnot
      have := Finset.mem_range.mp hr
      omega
    rw [runWeight, joint_of_length_lt hlength, mul_zero]

theorem sum_runWeight (xs : List ℝ) :
    ∑ r ∈ Finset.range (stateCount xs), runWeight hazard xs r = totalWeight hazard xs := by
  have h : ∑ r ∈ Finset.range (stateCount xs), 1 * runWeight hazard xs r = _ :=
    sum_stateCount xs fun _ => 1
  simp only [one_mul] at h
  rw [h]
  exact sum_joint maxRunLength_pos xs

theorem runWeight_cut (v : ℝ) (xs : List ℝ) :
    runWeight hazard (v :: xs) 0 =
      hazard * ∑ r ∈ Finset.range (stateCount xs),
        density (xs.take r) v * runWeight hazard xs r := by
  rw [sum_stateCount xs fun r => density (xs.take r) v]
  exact joint_cut maxRunLength_pos v xs

theorem runWeight_stay (v : ℝ) (xs : List ℝ) {r : ℕ} (h : r + 1 < maxRunLength) :
    runWeight hazard (v :: xs) (r + 1) =
      (1 - hazard) * (density (xs.take r) v * runWeight hazard xs r) := by
  rw [runWeight, joint_stay, if_pos h]
  rfl

end Weights

/-! ## One observation -/

section Observation

variable {hazard threshold : ℝ} {d : BocpdDetector ℝ} {xs : List ℝ}

/-- The states a detector with the posterior has. -/
noncomputable def posteriorStates (hazard : ℝ) (xs : List ℝ) : List (RunState ℝ) :=
  (List.range (stateCount xs)).map fun r =>
    { nig := conjugatePosterior (xs.take r)
      logMass := Real.log (runWeight hazard xs r / totalWeight hazard xs) }

/-- The posterior before the last observation, updated and not yet normalised. -/
noncomputable def updatedStates (hazard : ℝ) (v : ℝ) (xs : List ℝ) : List (RunState ℝ) :=
  (List.range (stateCount (v :: xs))).map fun r =>
    { nig := conjugatePosterior ((v :: xs).take r)
      logMass := Real.log (runWeight hazard (v :: xs) r / totalWeight hazard xs) }

theorem stateCount_cons (v : ℝ) (xs : List ℝ) :
    stateCount (v :: xs) = min (stateCount xs) (maxRunLength - 1) + 1 := by
  simp only [stateCount, List.length_cons, maxRunLength]
  omega

/-- The logarithm of a mass that an observation with some density goes on with. -/
theorem exp_weighed (pos : 0 < hazard) (lt : hazard < 1) {r : ℕ} (h : r < stateCount xs)
    {rate : ℝ} (hrate : 0 < rate) (v : ℝ) :
    Real.exp (Real.log (runWeight hazard xs r / totalWeight hazard xs) +
        (conjugatePosterior (xs.take r)).predictiveLogProb realMath v + Real.log rate) =
      rate * (density (xs.take r) v * runWeight hazard xs r) / totalWeight hazard xs := by
  have hmass := div_pos (runWeight_pos pos lt h) (totalWeight_pos pos lt xs)
  rw [Real.exp_add, Real.exp_add, Real.exp_log hmass, Real.exp_log hrate, density]
  ring

/-- All runs that may have ended weigh as much as the histories that end a run here. -/
theorem logsumexp_cpLogMasses (pos : 0 < hazard) (lt : hazard < 1)
    (hstates : d.runStates = posteriorStates hazard xs) (hhazard : d.hazardRate = hazard) (v : ℝ) :
    logsumexp realMath (d.cpLogMasses realMath v) (d.cpLogMasses_ne_nil realMath v) =
      Real.log (runWeight hazard (v :: xs) 0 / totalWeight hazard xs) := by
  rw [logsumexp_eq]
  congr 1
  rw [BocpdDetector.cpLogMasses, hstates, posteriorStates, List.map_map, List.map_map,
    runWeight_cut, Finset.mul_sum, Finset.sum_div, ← sum_map_range]
  congr 1
  apply List.map_congr_left
  intro r hr
  rw [hhazard]
  exact exp_weighed pos lt (List.mem_range.mp hr) pos v

/-- A run that goes on weighs as much as the histories that leave it open. -/
theorem grown_eq (pos : 0 < hazard) (lt : hazard < 1)
    (hstates : d.runStates = posteriorStates hazard xs) (hhazard : d.hazardRate = hazard) (v : ℝ) :
    (d.grown realMath v).take (maxRunLength - 1) =
      (List.range (min (stateCount xs) (maxRunLength - 1))).map fun r =>
        { nig := conjugatePosterior ((v :: xs).take (r + 1))
          logMass := Real.log (runWeight hazard (v :: xs) (r + 1) / totalWeight hazard xs) } := by
  rw [BocpdDetector.grown, hstates, posteriorStates, List.map_map, ← List.map_take,
    List.take_range, min_comm]
  apply List.map_congr_left
  intro r hr
  obtain ⟨hcount, hcap⟩ := lt_min_iff.mp (List.mem_range.mp hr)
  have hnext : r + 1 < maxRunLength := by omega
  simp only [Function.comp_apply, updateOne_conjugatePosterior, List.take_succ_cons, hhazard,
    RunState.mk.injEq, true_and]
  rw [runWeight_stay v xs hnext, ← exp_weighed pos lt hcount (sub_pos.mpr lt) v, Real.log_exp]
  rfl

theorem newRunStates_eq (pos : 0 < hazard) (lt : hazard < 1)
    (hstates : d.runStates = posteriorStates hazard xs) (hhazard : d.hazardRate = hazard)
    (hprior : d.prior = BocpdDetector.segmentPrior) (v : ℝ) :
    d.newRunStates realMath v = updatedStates hazard v xs := by
  rw [BocpdDetector.newRunStates, updatedStates, stateCount_cons, List.range_succ_eq_map,
    List.map_cons, List.map_map]
  rw [show maxRunLength = (maxRunLength - 1) + 1 from rfl, List.take_succ_cons]
  congr 1
  · rw [logsumexp_cpLogMasses pos lt hstates hhazard v, hprior]
    rw [← foldr_updateOne (K := ℝ) ((v :: xs).take 0)]
    rfl
  · exact grown_eq pos lt hstates hhazard v

theorem logNorm_eq (pos : 0 < hazard) (lt : hazard < 1) {v : ℝ}
    (h : d.newRunStates realMath v = updatedStates hazard v xs) :
    d.logNorm realMath v =
      Real.log (totalWeight hazard (v :: xs) / totalWeight hazard xs) := by
  rw [BocpdDetector.logNorm, logsumexp_eq, h, updatedStates, List.map_map, List.map_map,
    ← sum_runWeight (v :: xs), Finset.sum_div, ← sum_map_range]
  congr 2
  apply List.map_congr_left
  intro r hr
  exact Real.exp_log (div_pos (runWeight_pos pos lt (List.mem_range.mp hr))
    (totalWeight_pos pos lt xs))

/-- One observation takes the posterior to the next one. -/
theorem observed_runStates (pos : 0 < hazard) (lt : hazard < 1)
    (hstates : d.runStates = posteriorStates hazard xs) (hhazard : d.hazardRate = hazard)
    (hprior : d.prior = BocpdDetector.segmentPrior) (v : ℝ) :
    (d.observed realMath v).runStates = posteriorStates hazard (v :: xs) := by
  have hnew := newRunStates_eq pos lt hstates hhazard hprior v
  rw [BocpdDetector.observed]
  simp only [hnew, logNorm_eq pos lt hnew, updatedStates, posteriorStates, List.map_map]
  apply List.map_congr_left
  intro r hr
  have hweight := runWeight_pos pos lt (List.mem_range.mp hr)
  have hbefore := totalWeight_pos pos lt xs
  have hafter := totalWeight_pos pos lt (v :: xs)
  simp only [Function.comp_apply, RunState.mk.injEq, true_and]
  rw [← Real.log_div (div_pos hweight hbefore).ne' (div_pos hafter hbefore).ne',
    div_div_div_cancel_right₀ hbefore.ne']

end Observation

/-! ## Runs of observations -/

section Run

variable {hazard threshold : ℝ}

theorem detector_settings (hazard threshold : ℝ) (xs : List ℝ) :
    (detector hazard threshold xs).prior = BocpdDetector.segmentPrior ∧
      (detector hazard threshold xs).hazardRate = hazard ∧
      (detector hazard threshold xs).changepointThreshold = threshold := by
  induction xs with
  | nil => exact ⟨rfl, rfl, rfl⟩
  | cons v xs ih => exact ih

theorem detector_runStates (pos : 0 < hazard) (lt : hazard < 1) (threshold : ℝ) (xs : List ℝ) :
    (detector hazard threshold xs).runStates = posteriorStates hazard xs := by
  induction xs with
  | nil =>
      have hweight : runWeight hazard [] 0 = 1 := joint_nil_zero _
      have htotal : totalWeight hazard [] = 1 := by
        rw [← sum_runWeight, show stateCount [] = 1 from rfl, Finset.sum_range_one, hweight]
      rw [posteriorStates, htotal, show stateCount [] = 1 from rfl]
      simp only [List.range_one, List.map_cons, List.map_nil, hweight, div_one, Real.log_one,
        List.take_zero, ← foldr_updateOne, List.foldr_nil]
      rfl
  | cons v xs ih =>
      obtain ⟨hprior, hhazard, _⟩ := detector_settings hazard threshold xs
      exact observed_runStates pos lt ih hhazard hprior v

theorem getElem?_posteriorStates {xs : List ℝ} {r : ℕ} {state : RunState ℝ}
    (h : (posteriorStates hazard xs)[r]? = some state) :
    r < stateCount xs ∧ state.nig = conjugatePosterior (xs.take r) ∧
      state.logMass = Real.log (runWeight hazard xs r / totalWeight hazard xs) := by
  rw [posteriorStates, List.getElem?_map, Option.map_eq_some_iff] at h
  obtain ⟨i, hi, rfl⟩ := h
  obtain ⟨hlt, rfl⟩ := List.getElem?_eq_some_iff.mp hi
  simp only [List.getElem_range, and_self, and_true]
  simpa only [List.length_range] using hlt

/-- The masses of the states are the shares of the run lengths. -/
theorem map_exp_posteriorStates (pos : 0 < hazard) (lt : hazard < 1) (xs : List ℝ) :
    (posteriorStates hazard xs).map (fun state => Real.exp state.logMass) =
      (List.range (stateCount xs)).map fun r =>
        runWeight hazard xs r / totalWeight hazard xs := by
  rw [posteriorStates, List.map_map]
  apply List.map_congr_left
  intro r hr
  exact Real.exp_log (div_pos (runWeight_pos pos lt (List.mem_range.mp hr))
    (totalWeight_pos pos lt xs))

theorem isPosterior_posteriorStates (pos : 0 < hazard) (lt : hazard < 1) (xs : List ℝ) :
    IsPosterior hazard xs (posteriorStates hazard xs) := by
  constructor
  case length_eq => rw [posteriorStates, List.length_map, List.length_range, stateCount]
  case nig_eq =>
    intro r state h
    exact (getElem?_posteriorStates h).2.1
  case mass_eq =>
    intro r state h
    obtain ⟨hr, _, hmass⟩ := getElem?_posteriorStates h
    rw [hmass, Real.exp_log (div_pos (runWeight_pos pos lt hr) (totalWeight_pos pos lt xs))]
  case sum_eq =>
    rw [map_exp_posteriorStates pos lt, sum_map_range, ← Finset.sum_div, sum_runWeight,
      div_self (totalWeight_pos pos lt xs).ne']

/-- The share of the histories whose open run is at most 4 long. -/
noncomputable def shortShare (hazard : ℝ) (xs : List ℝ) : ℝ :=
  (∑ r ∈ Finset.range 5, runWeight hazard xs r) / totalWeight hazard xs

theorem shortRunMass_eq (pos : 0 < hazard) (lt : hazard < 1) {d : BocpdDetector ℝ} {xs : List ℝ}
    (hstates : d.runStates = posteriorStates hazard xs) (h : 5 ≤ xs.length) :
    d.shortRunMass realMath = shortShare hazard xs := by
  have hcount : min 5 (stateCount xs) = 5 := by
    rw [stateCount, maxRunLength]
    omega
  have hmap := map_exp_posteriorStates pos lt xs
  rw [BocpdDetector.shortRunMass, hstates, shortShare, Finset.sum_div, ← sum_map_range,
    List.map_take]
  change (((posteriorStates hazard xs).map fun state => Real.exp state.logMass).take 5).sum = _
  rw [hmap, ← List.map_take, List.take_range, hcount]

theorem observe_snd (pos : 0 < hazard) (lt : hazard < 1) (now : ℕ) (v : ℝ) (xs : List ℝ) :
    ((detector hazard threshold xs).observe realMath now v).2 =
      if 5 ≤ (v :: xs).length ∧ threshold < shortShare hazard (v :: xs) then
        some
          { detectedAt := now
            bocpdRunLengthPosteriorMass := shortShare hazard (v :: xs)
            conformalMarginApplied := 0 }
      else none := by
  have hstates := detector_runStates pos lt threshold (v :: xs)
  have hlength : (detector hazard threshold (v :: xs)).runStates.length = stateCount (v :: xs) := by
    rw [hstates, posteriorStates, List.length_map, List.length_range]
  have hthreshold := (detector_settings hazard threshold (v :: xs)).2.2
  have hobserved : (detector hazard threshold xs).observed realMath v =
      detector hazard threshold (v :: xs) := rfl
  simp only [BocpdDetector.observe, hobserved]
  by_cases hfive : 5 ≤ (v :: xs).length
  · have hmany : ¬(detector hazard threshold (v :: xs)).runStates.length ≤ 5 := by
      rw [hlength, stateCount, maxRunLength]
      omega
    rw [if_neg hmany, hthreshold, shortRunMass_eq pos lt hstates hfive]
    by_cases hfires : threshold < shortShare hazard (v :: xs)
    · rw [if_pos hfires, if_pos ⟨hfive, hfires⟩]
    · rw [if_neg hfires, if_neg fun h => hfires h.2]
  · have hfew : (detector hazard threshold (v :: xs)).runStates.length ≤ 5 := by
      rw [hlength, stateCount]
      omega
    rw [if_pos hfew, if_neg fun h => hfive h.1]

end Run

/-! ## The guarantee -/

end ControlPlane.Guarantees.ChangepointPosterior
