import ControlPlane.Source.Ensemble.Sizing
import Mathlib.Algebra.Order.Floor.Ring

/-!
# Drift of the calibration

Embeds `crates/h2ai-autonomic/src/drift.rs` and the use of the margin at the start of
`ExecutionEngine::run_offline` (`crates/h2ai-orchestrator/src/engine.rs`). Numbers are exact, in
any ordered field, and have no infinities; the functions of `f64` are parameters. Instants are
nanoseconds.
-/
namespace ControlPlane.Source.Autonomic

open Ensemble

structure DriftMath (K : Type) extends LogExp K where
  sqrt : K → K
  sin : K → K
  pi : K

variable {K : Type} [Field K] [LinearOrder K]

/-! ## Sliding window -/

structure CalibrationDriftWarning (K : Type) where
  detectedAt : Nat
  metric : String
  recentMean : K
  referenceMean : K
  deviationSigmas : K
  deriving DecidableEq, Repr

/-- `DdmDetector`; the oldest observation of the window is the first. -/
structure DdmDetector (K : Type) where
  window : List K
  windowSize : Nat
  kDdm : K
  referenceMean : K
  referenceStd : K
  initialized : Bool
  /-- The constructor raises smaller sizes. -/
  two_le : 2 ≤ windowSize

/-- `sum::<f64>() / len`. -/
def mean (values : List K) (count : Nat) : K := values.sum / (count : K)

/-- The variance of a full window around its mean. -/
def windowVariance (values : List K) (windowSize : Nat) : K :=
  (values.map fun v => (v - mean values windowSize) ^ 2).sum / ((windowSize - 1 : Nat) : K)

/-- The least `reference_std`. -/
def minReferenceStd : K := 1 / 100

namespace DdmDetector

def new (windowSize : Nat) (kDdm : K) : DdmDetector K where
  window := []
  windowSize := max windowSize 2
  kDdm := kDdm
  referenceMean := 0
  referenceStd := 0
  initialized := false
  two_le := Nat.le_max_right windowSize 2

/-- The window after `push_back` and `pop_front`. -/
def pushed (d : DdmDetector K) (v : K) : List K :=
  let window := d.window ++ [v]
  if d.windowSize < window.length then window.tail else window

def observe (x : DriftMath K) (now : Nat) (d : DdmDetector K) (v : K) :
    DdmDetector K × Option (CalibrationDriftWarning K) :=
  let d := { d with window := d.pushed v }
  if d.initialized = false ∧ d.window.length = d.windowSize then
    ({ d with
        referenceMean := mean d.window d.windowSize
        referenceStd := max (x.sqrt (windowVariance d.window d.windowSize)) minReferenceStd
        initialized := true }, none)
  else if d.initialized = false ∨ d.window.length < d.windowSize then (d, none)
  else
    let recentMean := mean d.window d.window.length
    let deviation := |recentMean - d.referenceMean| / d.referenceStd
    if d.kDdm < deviation then
      (d, some
        { detectedAt := now
          metric := "consensus_agreement_rate"
          recentMean := recentMean
          referenceMean := d.referenceMean
          deviationSigmas := deviation })
    else (d, none)

def reset (d : DdmDetector K) : DdmDetector K := { d with window := [], initialized := false }

end DdmDetector

/-! ## Predictive density -/

/-- How far the recursion of `lgamma` has to go. -/
def lgammaSteps [FloorSemiring K] (z : K) : Nat := if z < 1 / 2 then ⌈8 - (1 - z)⌉₊ + 1 else ⌈8 - z⌉₊

theorem lgammaSteps_reflect [IsStrictOrderedRing K] [FloorSemiring K] {z : K} (h : z < 1 / 2) : lgammaSteps (1 - z) < lgammaSteps z := by
  have hnot : ¬1 - z < 1 / 2 := by
    rw [not_lt, le_sub_comm]
    exact h.le.trans (le_of_eq (by norm_num))
  rw [lgammaSteps, lgammaSteps, if_neg hnot, if_pos h]
  exact Nat.lt_succ_self _

theorem lgammaSteps_shift [IsStrictOrderedRing K] [FloorSemiring K] {z : K}
    (hlow : ¬z < 1 / 2) (h : z < 8) :
    lgammaSteps (z + 1) < lgammaSteps z := by
  have hnot : ¬z + 1 < 1 / 2 := fun hlt => hlow ((lt_add_one z).trans hlt)
  rw [lgammaSteps, lgammaSteps, if_neg hnot, if_neg hlow, ← sub_sub, Nat.ceil_sub_one]
  exact Nat.sub_lt (Nat.ceil_pos.mpr (sub_pos.mpr h)) Nat.one_pos

/-- `lgamma`: reflection, recursion up to 8, and the series from there on. -/
def lgamma [IsStrictOrderedRing K] [FloorSemiring K] (x : DriftMath K) (z : K) : K :=
  if z < 1 / 2 then x.ln x.pi - x.ln |x.sin (x.pi * z)| - lgamma x (1 - z)
  else if z < 8 then lgamma x (z + 1) - x.ln z
  else
    let w := 1 / (z * z)
    (z - 1 / 2) * x.ln z - z + 1 / 2 * x.ln (2 * x.pi) +
      (1 / 12 - w * (1 / 360 - w / 1260)) / z
termination_by lgammaSteps z
decreasing_by
  · exact lgammaSteps_reflect ‹_›
  · exact lgammaSteps_shift ‹_› ‹_›

def studentTLogPdf [IsStrictOrderedRing K] [FloorSemiring K] (x : DriftMath K)
    (v df loc scale : K) : K :=
  let z := (v - loc) / scale
  lgamma x ((df + 1) / 2) - lgamma x (df / 2) - 1 / 2 * x.ln (df * x.pi) - x.ln scale -
    (df + 1) / 2 * x.ln (1 + z * z / df)

/-- `logsumexp` of at least one logarithm. -/
def logsumexp (x : DriftMath K) (logProbs : List K) (nonempty : logProbs ≠ []) : K :=
  let greatest := logProbs.tail.foldl max (logProbs.head nonempty)
  greatest + x.ln (logProbs.map fun lp => x.exp (lp - greatest)).sum

/-! ## Run lengths -/

/-- `NigParams`: a Normal-Inverse-Gamma distribution. -/
structure NigParams (K : Type) where
  mu : K
  kappa : K
  alpha : K
  beta : K
  deriving DecidableEq, Repr

namespace NigParams

def updateOne (nig : NigParams K) (v : K) : NigParams K :=
  let kappaNew := nig.kappa + 1
  { mu := (nig.kappa * nig.mu + v) / kappaNew
    kappa := kappaNew
    alpha := nig.alpha + 1 / 2
    beta := nig.beta + nig.kappa * (v - nig.mu) ^ 2 / (2 * kappaNew) }

/-- `scale_sq` of the predictive distribution. -/
def scaleSq (nig : NigParams K) : K :=
  nig.beta * (nig.kappa + 1) / (nig.alpha * nig.kappa)

def predictiveLogProb [IsStrictOrderedRing K] [FloorSemiring K] (x : DriftMath K)
    (nig : NigParams K) (v : K) : K :=
  let df := 2 * nig.alpha
  let scale := max (x.sqrt nig.scaleSq) (1 / 10 ^ 9)
  studentTLogPdf x v df nig.mu scale

end NigParams

structure RunState (K : Type) where
  nig : NigParams K
  logMass : K
  deriving DecidableEq, Repr

/-- `MAX_RUN_LENGTH`. -/
def maxRunLength : Nat := 500

structure CalibrationChangepoint (K : Type) where
  detectedAt : Nat
  bocpdRunLengthPosteriorMass : K
  conformalMarginApplied : K
  deriving DecidableEq, Repr

/-- `BocpdDetector`; state `i` is that of the run length `i`. -/
structure BocpdDetector (K : Type) where
  prior : NigParams K
  hazardRate : K
  changepointThreshold : K
  runStates : List (RunState K)
  nonempty : runStates ≠ []

namespace BocpdDetector

/-- The prior of every new segment. -/
def segmentPrior : NigParams K where
  mu := 1 / 2
  kappa := 1
  alpha := 1
  beta := 1 / 10

def new (hazardRate changepointThreshold : K) : BocpdDetector K where
  prior := segmentPrior
  hazardRate := hazardRate
  changepointThreshold := changepointThreshold
  runStates := [{ nig := segmentPrior, logMass := 0 }]
  nonempty := List.cons_ne_nil _ _

def runStatesLen (d : BocpdDetector K) : Nat := d.runStates.length

section Observe

variable [IsStrictOrderedRing K] [FloorSemiring K] (x : DriftMath K) (d : BocpdDetector K) (v : K)

/-- The runs that go on, a run length longer. -/
def grown : List (RunState K) :=
  let log1mh := x.ln (1 - d.hazardRate)
  d.runStates.map fun state =>
    { nig := state.nig.updateOne v
      logMass := state.logMass + state.nig.predictiveLogProb x v + log1mh }

/-- `cp_log_masses`: the runs that end here. -/
def cpLogMasses : List K :=
  let logH := x.ln d.hazardRate
  d.runStates.map fun state => state.logMass + state.nig.predictiveLogProb x v + logH

theorem cpLogMasses_ne_nil : d.cpLogMasses x v ≠ [] := by
  simpa only [cpLogMasses, ne_eq, List.map_eq_nil_iff] using d.nonempty

/-- `new_run_states`, cut to the run lengths that are kept. -/
def newRunStates : List (RunState K) :=
  let fresh :=
    { nig := d.prior, logMass := logsumexp x (d.cpLogMasses x v) (d.cpLogMasses_ne_nil x v) }
  (fresh :: d.grown x v).take maxRunLength

theorem newRunStates_ne_nil : d.newRunStates x v ≠ [] := List.cons_ne_nil _ _

theorem newLogMasses_ne_nil : (d.newRunStates x v).map RunState.logMass ≠ [] := by
  simpa only [ne_eq, List.map_eq_nil_iff] using d.newRunStates_ne_nil x v

def logNorm : K :=
  logsumexp x ((d.newRunStates x v).map RunState.logMass) (d.newLogMasses_ne_nil x v)

/-- The detector after one observation. -/
def observed : BocpdDetector K where
  prior := d.prior
  hazardRate := d.hazardRate
  changepointThreshold := d.changepointThreshold
  runStates := (d.newRunStates x v).map fun state =>
    { state with logMass := state.logMass - d.logNorm x v }
  nonempty := by simpa only [ne_eq, List.map_eq_nil_iff] using d.newRunStates_ne_nil x v

end Observe

/-- `short_run_mass`: the mass of the run lengths up to 4. -/
def shortRunMass (x : DriftMath K) (d : BocpdDetector K) : K :=
  ((d.runStates.take 5).map fun state => x.exp state.logMass).sum

def observe [IsStrictOrderedRing K] [FloorSemiring K] (x : DriftMath K) (now : Nat)
    (d : BocpdDetector K) (v : K) : BocpdDetector K × Option (CalibrationChangepoint K) :=
  let d := d.observed x v
  if d.runStates.length ≤ 5 then (d, none)
  else if d.changepointThreshold < d.shortRunMass x then
    (d, some
      { detectedAt := now
        bocpdRunLengthPosteriorMass := d.shortRunMass x
        conformalMarginApplied := 0 })
  else (d, none)

theorem observe_fst [IsStrictOrderedRing K] [FloorSemiring K] (x : DriftMath K) (now : Nat)
    (d : BocpdDetector K) (v : K) : (d.observe x now v).1 = d.observed x v := by
  simp only [observe]
  split
  · rfl
  · split
    · rfl
    · rfl

def reset (d : BocpdDetector K) : BocpdDetector K where
  prior := d.prior
  hazardRate := d.hazardRate
  changepointThreshold := d.changepointThreshold
  runStates := [{ nig := d.prior, logMass := 0 }]
  nonempty := List.cons_ne_nil _ _

end BocpdDetector

/-! ## Monitor -/

inductive DriftEvent (K : Type) where
  | warning (w : CalibrationDriftWarning K)
  | changepoint (cp : CalibrationChangepoint K)
  deriving DecidableEq, Repr

/-- `DriftMonitor`; `auto_recalibrate` is only logged. -/
structure DriftMonitor (K : Type) where
  ddm : DdmDetector K
  bocpd : BocpdDetector K
  conformalMargin : K
  stalenessTtlSecs : Nat
  changepointActive : Bool
  changepointDetectedAt : Option Nat

/-- `Duration::as_secs` of the time between two instants. -/
def elapsedSecs (since now : Nat) : Nat := (now - since) / 10 ^ 9

namespace DriftMonitor

def new (ddm : DdmDetector K) (bocpd : BocpdDetector K) (conformalMargin : K)
    (stalenessTtlSecs : Nat) : DriftMonitor K where
  ddm := ddm
  bocpd := bocpd
  conformalMargin := conformalMargin
  stalenessTtlSecs := stalenessTtlSecs
  changepointActive := false
  changepointDetectedAt := none

def observe [IsStrictOrderedRing K] [FloorSemiring K] (x : DriftMath K) (now : Nat)
    (m : DriftMonitor K) (agreementRate : K) : DriftMonitor K × List (DriftEvent K) :=
  let (ddm, warning) := m.ddm.observe x now agreementRate
  let (bocpd, changepoint) := m.bocpd.observe x now agreementRate
  let m := { m with ddm := ddm, bocpd := bocpd }
  let events := (warning.map DriftEvent.warning).toList
  match changepoint with
  | none => (m, events)
  | some cp =>
      ({ m with changepointActive := true, changepointDetectedAt := some now },
        events ++ [.changepoint { cp with conformalMarginApplied := m.conformalMargin }])

def activeConformalMargin (now : Nat) (m : DriftMonitor K) : K :=
  if m.changepointActive = false then 0
  else
    match m.changepointDetectedAt with
    | some t => if elapsedSecs t now < m.stalenessTtlSecs then m.conformalMargin else 0
    | none => 0

def resetAfterRecalibration (m : DriftMonitor K) : DriftMonitor K :=
  { m with
    ddm := m.ddm.reset
    bocpd := m.bocpd.reset
    changepointActive := false
    changepointDetectedAt := none }

end DriftMonitor

/-- The verification threshold of a task, from the configured one and the margin. -/
def widenedThreshold (threshold conformalMargin : K) : K :=
  if 0 < conformalMargin then max (threshold - conformalMargin) 0 else threshold

end ControlPlane.Source.Autonomic
