import ControlPlane.Lib.Sequences
import ControlPlane.Source.Ensemble.Sizing
import Mathlib.Algebra.Order.Floor.Semiring
import Mathlib.Order.WithBot

/-!
# Diagnostics of an ensemble

Embeds `conformal_interval` of `crates/h2ai-orchestrator/src/attribution.rs`,
`TalagrandDiagnostic::from_verification_scores` of `diagnostics.rs` there with
`talagrand_kl_delta_tau` of `crates/h2ai-autonomic/src/epistemic.rs`, and
`participation_ratio` of `crates/h2ai-orchestrator/src/complexity.rs`. Numbers are exact, in
any ordered field; the square root is a parameter.
-/
namespace ControlPlane.Source.Ensemble

open Lib

variable {K : Type} [Field K] [LinearOrder K]

/-! ## Conformal intervals -/

section Conformal

variable [FloorSemiring K]

/-- The quantile index, counted from 1. -/
def quantileIndex (n : Nat) (coverage : K) : Nat := min ⌈((n + 1 : Nat) : K) * coverage⌉₊ n

/-- `q_hat` for a list of residuals that is not empty. -/
def qHat (calibrationResiduals : List K) (coverage : K) : K :=
  let idx := quantileIndex calibrationResiduals.length coverage
  ((sorted calibrationResiduals)[idx - 1]?).getD 1

def conformalInterval (qPredicted : K) (calibrationResiduals : List K) (coverage : K) : K × K :=
  if calibrationResiduals.isEmpty then (max 0 (qPredicted - 1), min (qPredicted + 1) 1)
  else
    let qHat := qHat calibrationResiduals coverage
    (clamp 0 1 (qPredicted - qHat), clamp 0 1 (qPredicted + qHat))

end Conformal

/-! ## Rank histograms -/

inductive CalibrationState where
  | calibrated
  | overConfident
  | underDispersed
  | insufficient
  deriving DecidableEq, Repr

structure TalagrandDiagnostic (K : Type) where
  rankHistogram : List Nat
  chiSqFromUniform : K
  spreadErrorRatio : K
  calibrationState : CalibrationState
  deriving DecidableEq, Repr

/-- A score that is not NaN: a number or one of the infinities. -/
abbrev Score (K : Type) := WithBot (WithTop K)

/-- The arithmetic behind the spread: the value of a score, and the square root. -/
structure SpreadMath (K : Type) where
  value : Score K → K
  sqrt : K → K

section Ranks

variable {S : Type} [LinearOrder S] [OrderBot S]

/-- `max_by` with the index: the last of several highest scores. -/
def topScore : List S → Nat × S
  | [] => (0, ⊥)
  | s :: rest =>
      let later := topScore rest
      if rest.isEmpty ∨ later.2 < s then (0, s) else (later.1 + 1, later.2)

/-- The highest score at another index than the top's. -/
def secondScore (topIdx : Nat) (scores : List S) : S :=
  scores.zipIdx.foldl (fun second e => if e.2 ≠ topIdx ∧ second < e.1 then e.1 else second) ⊥

/-- The rank of the runner-up. -/
def runnerUpRank (scores : List S) : Nat :=
  let second := secondScore (topScore scores).1 scores
  if second = ⊥ then scores.length / 2
  else scores.countP fun s => decide (second < s)

/-- The score vectors that are not skipped. -/
def runsOf (n : Nat) (perRunScores : List (List S)) : List (List S) :=
  perRunScores.filter fun scores => decide (scores.length = n)

def rankHistogram (n : Nat) (perRunScores : List (List S)) : List Nat :=
  (List.range (n + 1)).map fun r =>
    (runsOf n perRunScores).countP fun scores => decide (min (runnerUpRank scores) n = r)

end Ranks

def chiSqFromUniform (histogram : List Nat) (t : Nat) (n : Nat) : K :=
  let expected := (t : K) / (n : K)
  ((histogram.drop 1).map fun c => ((c : K) - expected) ^ 2 / max expected 1).sum

def meanScore (f : SpreadMath K) (scores : List (Score K)) : K :=
  (scores.map f.value).sum / (scores.length : K)

def spreadOf (f : SpreadMath K) (scores : List (Score K)) : K :=
  let mean := meanScore f scores
  f.sqrt ((scores.map fun s => (f.value s - mean) ^ 2).sum / (scores.length : K))

def gapOf (f : SpreadMath K) (scores : List (Score K)) : K :=
  f.value (topScore scores).2 - meanScore f scores

def calibrationStateOf (histogram : List Nat) (chiSq : K) (t n : Nat) : CalibrationState :=
  if t < 20 then .insufficient
  else if chiSq < 384 / 100 then .calibrated
  else
    let tailCount := histogram.getD 1 0 + histogram.getD n 0
    if (2 : K) / (n : K) < (tailCount : K) / (t : K) then .overConfident else .underDispersed

/-- `TalagrandDiagnostic::from_verification_scores`. -/
def fromVerificationScores (f : SpreadMath K) (perRunScores : List (List (Score K))) :
    Option (TalagrandDiagnostic K) :=
  match perRunScores with
  | [] => none
  | first :: _ =>
      let n := first.length
      if n < 2 then none
      else
        let histogram := rankHistogram n perRunScores
        let spreadSum := ((runsOf n perRunScores).map (spreadOf f)).sum
        let gapSum := ((runsOf n perRunScores).map (gapOf f)).sum
        let t := perRunScores.length
        let chiSq : K := chiSqFromUniform histogram t n
        some
          { rankHistogram := histogram
            chiSqFromUniform := chiSq
            spreadErrorRatio := if 1 / 10 ^ 10 < gapSum then spreadSum / gapSum else 1
            calibrationState := calibrationStateOf histogram chiSq t n }

/-- The highest of the middle bins, of which there is at least one. -/
def middleMax : List K → K
  | [] => 0
  | h :: rest => rest.foldl max h

def talagrandKlDeltaTau (histogram : List K) (eta : K) : K :=
  let n := histogram.length
  if n < 3 then 0
  else
    let total := histogram.sum
    if total < 1 / 10 ^ 10 then 0
    else
      let h := histogram.map fun c => c / total
      let meanH := 1 / (n : K)
      let varH := (h.map fun v => (v - meanH) ^ 2).sum / (n : K)
      let uScore := varH / meanH
      let hMiddleMax := middleMax (h.drop 1).dropLast
      let hEdgesMean := (h.headD 0 + h.getLastD 0) / 2
      let lambdaScore := if 1 / 10 ^ 10 < hEdgesMean then hMiddleMax / hEdgesMean else 0
      eta * (uScore - lambdaScore)

/-! ## Participation ratio -/

def columnMean (matrix : List (List K)) (j : Nat) : K :=
  (matrix.map fun row => row.getD j 0).sum / (matrix.length : K)

/-- `centered`: every row less the means of the columns. -/
def centeredRows (nCols : Nat) (matrix : List (List K)) : List (List K) :=
  let means := (List.range nCols).map (columnMean matrix)
  matrix.map fun row => row.mapIdx fun j v => v - means.getD j 0

def columnDot (centered : List (List K)) (j k : Nat) : K :=
  (centered.map fun row => row.getD j 0 * row.getD k 0).sum

def traceC (nCols : Nat) (centered : List (List K)) (denom : K) : K :=
  ((List.range nCols).map fun j => columnDot centered j j).sum / denom

def frobSq (nCols : Nat) (centered : List (List K)) (denom : K) : K :=
  ((List.range nCols).map fun j =>
    ((List.range nCols).map fun k =>
      columnDot centered j k / denom * (columnDot centered j k / denom)).sum).sum

/-- `participation_ratio`; a matrix of rows of several lengths is an index out of bounds. -/
def participationRatio (matrix : List (List K)) : K :=
  match matrix with
  | [] => 1
  | first :: _ =>
      let nCols := first.length
      if nCols = 0 then 1
      else
        let centered := centeredRows nCols matrix
        let denom := ((matrix.length - 1 : Nat) : K)
        if denom < epsilon then 1
        else
          let traceC := traceC nCols centered denom
          if traceC < epsilon then 1
          else
            let frobSq := frobSq nCols centered denom
            if frobSq < epsilon then 1 else clamp 1 (nCols : K) (traceC * traceC / frobSq)

end ControlPlane.Source.Ensemble
