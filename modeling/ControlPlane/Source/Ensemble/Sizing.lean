import ControlPlane.Lib.Numerals
import Mathlib.Algebra.Order.Field.Basic
import Mathlib.Data.List.Range

/-!
# Ensemble sizing

Embeds `condorcet_quality` with `log_binom_coeff` and `log_gamma`, and the constructors of
`EnsembleCalibration`, of `crates/h2ai-types/src/sizing.rs`. Numbers are exact, in any
ordered field; the logarithm and the exponential are parameters.
-/
namespace ControlPlane.Source.Ensemble

variable {K : Type} [Field K] [LinearOrder K]

structure LogExp (K : Type) where
  ln : K → K
  exp : K → K

/-- `f64::clamp`. -/
def clamp (lo hi v : K) : K := max lo (min v hi)

/-! ## Condorcet quality -/

/-- `log_gamma`: the logarithm of `(n - 1)!`. -/
def logGamma (x : LogExp K) (n : Nat) : K :=
  if n ≤ 1 then 0 else ((List.range' 1 (n - 1)).map fun i : Nat => x.ln (i : K)).sum

def logBinomCoeff (x : LogExp K) (n k : Nat) : K :=
  if k = 0 ∨ k = n then 0
  else logGamma x (n + 1) - logGamma x (k + 1) - logGamma x (n - k + 1)

/-- The probability of exactly `k` right votes, by way of its logarithm. -/
def votesTerm (x : LogExp K) (n : Nat) (p : K) (k : Nat) : K :=
  let logTerm := ((n - k : Nat) : K) * x.ln (1 - p) + ((k : K) * x.ln p + logBinomCoeff x n k)
  x.exp logTerm

/-- The sum behind `q_ind`, before it is clamped. -/
def votesSum (x : LogExp K) (n : Nat) (p : K) : K :=
  let majority := n / 2 + 1
  let sum := ((List.range' majority (n + 1 - majority)).map (votesTerm x n p)).sum
  if n % 2 = 0 then sum + 1 / 2 * votesTerm x n p (n / 2) else sum

/-- The result for a sum of votes, before it is clamped. -/
def correlatedQuality (qInd p rho : K) : K := (qInd - p) * (1 - rho) + p

def condorcetQuality (x : LogExp K) (nAgents : Nat) (p rho : K) : K :=
  let p := clamp 0 1 p
  let rho := clamp 0 1 rho
  if p ≤ 0 then 0
  else if 1 ≤ p then 1
  else if nAgents = 0 then 0
  else if nAgents = 1 then p
  else clamp 0 1 (correlatedQuality (clamp 0 1 (votesSum x nAgents p)) p rho)

/-! ## Calibrated ensembles -/

inductive PredictionBasis where
  | heuristic
  | empirical
  deriving DecidableEq, Repr

structure EnsembleCalibration (K : Type) where
  pMean : K
  rhoMean : K
  nOptimal : Nat
  qOptimal : K
  predictionBasis : PredictionBasis
  deriving DecidableEq, Repr

/-- `Iterator::max_by` on scores: of several maxima the last one. -/
def maxBy (score : Nat → K) : List Nat → Option Nat
  | [] => none
  | n :: rest => some (rest.foldl (fun best m => if score m < score best then best else m) n)

/-- The marginal gain per agent over a single agent. -/
def sizeScore (x : LogExp K) (p rho : K) (n : Nat) : K :=
  (condorcetQuality x n p rho - p) / (n : K)

/-- The search that the three constructors repeat, for an admitted accuracy and correlation. -/
def calibrated (x : LogExp K) (basis : PredictionBasis) (p rho : K) (maxN : Nat) :
    EnsembleCalibration K :=
  let nOptimal := (maxBy (sizeScore x p rho) (List.range' 1 maxN)).getD 1
  { pMean := p
    rhoMean := rho
    nOptimal := nOptimal
    qOptimal := condorcetQuality x nOptimal p rho
    predictionBasis := basis }

/-- `f64::EPSILON`. -/
def epsilon : K := 1 / 2 ^ 52

/-- `RHO_UPPER_CLAMP`. -/
def rhoUpperClamp : K := 99 / 100

namespace EnsembleCalibration

def fromCgMean (x : LogExp K) (cgMean : K) (maxN : Nat) : EnsembleCalibration K :=
  let cg := clamp epsilon 1 cgMean
  let rhoMean := clamp 0 1 (1 - cg)
  let pMean := clamp (1 / 2) 1 (1 / 2 + cg / 2)
  calibrated x .heuristic pMean rhoMean (max maxN 1)

def fromMeasuredP (x : LogExp K) (pMean cgMean : K) (maxN : Nat) : EnsembleCalibration K :=
  let p := clamp (1 / 2) 1 pMean
  let cg := clamp epsilon 1 cgMean
  let rhoMean := clamp 0 1 (1 - cg)
  calibrated x .empirical p rhoMean (max maxN 1)

def fromEmpirical (x : LogExp K) (pMean rhoEmpirical : K) (maxN : Nat) : EnsembleCalibration K :=
  let p := clamp (1 / 2) 1 pMean
  let rho := clamp 0 rhoUpperClamp rhoEmpirical
  calibrated x .empirical p rho (max maxN 1)

end EnsembleCalibration

/-! ## The last maximum -/

/-- The last of the sizes from 1 to `maxN` with the highest score. -/
structure LastBest (score : Nat → K) (maxN n : Nat) : Prop where
  pos : 1 ≤ n
  le : n ≤ maxN
  best : ∀ m, 1 ≤ m → m ≤ maxN → score m ≤ score n
  last : ∀ m, n < m → m ≤ maxN → score m < score n

omit [Field K] in
theorem maxBy_append (score : Nat → K) (ns : List Nat) (m : Nat) :
    maxBy score (ns ++ [m]) =
      match maxBy score ns with
      | none => some m
      | some best => some (if score m < score best then best else m) := by
  cases ns with
  | nil => rfl
  | cons n rest => simp [maxBy]

omit [Field K] in
theorem maxBy_lastBest (score : Nat → K) {maxN : Nat} (h : 1 ≤ maxN) :
    ∃ n, maxBy score (List.range' 1 maxN) = some n ∧ LastBest score maxN n := by
  induction maxN, h using Nat.le_induction with
  | base =>
      refine ⟨1, rfl, Nat.le_refl 1, Nat.le_refl 1, ?_, ?_⟩
      · intro m hm hm'
        rw [Nat.le_antisymm hm' hm]
      · intro m hm hm'
        omega
  | succ maxN h ih =>
      obtain ⟨n, hn, hbest⟩ := ih
      have hadd : 1 + maxN = maxN + 1 := Nat.add_comm 1 maxN
      rw [List.range'_1_concat, maxBy_append, hn, hadd]
      by_cases hlower : score (maxN + 1) < score n
      · refine ⟨n, by simp [hlower], hbest.pos, hbest.le.trans (Nat.le_succ _), ?_, ?_⟩
        · intro m hm hm'
          rcases Nat.of_le_succ hm' with hle | rfl
          · exact hbest.best m hm hle
          · exact hlower.le
        · intro m hm hm'
          rcases Nat.of_le_succ hm' with hle | rfl
          · exact hbest.last m hm hle
          · exact hlower
      · refine ⟨maxN + 1, by simp [hlower], by omega, Nat.le_refl _, ?_, ?_⟩
        · intro m hm hm'
          rcases Nat.of_le_succ hm' with hle | rfl
          · exact (hbest.best m hm hle).trans (not_lt.mp hlower)
          · exact le_refl _
        · intro m hm hm'
          omega

theorem calibrated_lastBest (x : LogExp K) (basis : PredictionBasis) (p rho : K) {maxN : Nat}
    (h : 1 ≤ maxN) :
    LastBest (sizeScore x p rho) maxN (calibrated x basis p rho maxN).nOptimal := by
  obtain ⟨n, hn, hbest⟩ := maxBy_lastBest (sizeScore x p rho) h
  have hopt : (calibrated x basis p rho maxN).nOptimal = n := by
    unfold calibrated
    dsimp only
    rw [hn, Option.getD_some]
  rwa [hopt]

end ControlPlane.Source.Ensemble
