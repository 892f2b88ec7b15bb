import ControlPlane.Source.Config
import ControlPlane.Source.Verification.Phase

/-!
# Events, outcomes and decisions of a wave

The data that passes between the pipeline, the MAPE-K controller and the engine:
`crates/h2ai-orchestrator/src/mape_k.rs` (lines 1–190), `phases/mod.rs`,
`EngineError` of `engine.rs` and the event types they carry. Time stamps and
payloads that no modelled function reads are left out.
-/
namespace ControlPlane.Source.MapeK

open Verification Constraints

inductive TopologyKind where
  | ensemble
  | hierarchicalTree (branchingFactor : Option Nat)
  | teamSwarmHybrid
  deriving DecidableEq, Repr

inductive FailureMode where
  | constrainedExploration
  | modeCollapse
  | correlatedHallucination (cv meanJaccardDistance : ℚ)
  deriving DecidableEq, Repr

inductive MultiplicationConditionFailure where
  | insufficientCompetence (actual required : ℚ)
  | insufficientDecorrelation (actual threshold : ℚ)
  | commonGroundBelowFloor (cgMean theta : ℚ)
  | insufficientPoolDiversity (nEff threshold : ℚ)
  | verifierExplorerFamilyConflict (explorerFamily verifierFamily : String)
  | quorumDegradedBelowMinimum (unclampedNMax : ℚ)
  deriving DecidableEq, Repr

structure VerificationScoredEvent where
  explorerId : String
  score : ℚ
  passed : Bool
  deriving DecidableEq, Repr

structure BranchPrunedEvent where
  explorerId : String
  reason : String
  rawOutput : String
  violatedConstraints : List ConstraintViolation
  retryCount : Nat
  deriving DecidableEq, Repr

structure CorrelatedEnsembleWarning where
  cv : ℚ
  meanJaccardDistance : ℚ
  retryCount : Nat
  deriving DecidableEq, Repr

structure OptimizerParams where
  nAgents : Nat
  maxTurns : Nat
  verifyThreshold : ℚ
  deriving DecidableEq, Repr

structure QualityMeasurement where
  params : OptimizerParams
  qConfidence : ℚ
  deriving DecidableEq, Repr

/-- `ComplexityProbeResult`: a score from 1 to 5 with its rationale. -/
structure ComplexityProbeResult where
  complexity : Nat
  rationale : String
  deriving DecidableEq, Repr

inductive EngineError where
  | multiplicationConditionFailed (msg : String)
  | maxRetriesExhausted
  | adapter (msg : String)
  | parse (msg : String)
  | deadlineExceeded (budgetSecs : Nat)
  | insufficientQuorum (n f required : Nat)
  | checkpointWriteFailed (msg : String)
  | hitlRejected (operatorId : String) (reviewerNote : Option String)
  deriving DecidableEq, Repr

/-- `ExitReason`: why a wave ended without a merge. -/
inductive ExitReason where
  | multiplicationFailed (tauValues : List ℚ) (failure : MultiplicationConditionFailure)
  | diversityFailed (nEff : ℚ) (tauValues : List ℚ)
  | zeroSurvival (failureMode : Option FailureMode) (nEffCosine : Option ℚ) (filterRatio : ℚ)
      (tauValues : List ℚ) (partialVerificationEvents : List VerificationScoredEvent)
  | oracleBlocked
  | oraclePostSelectionBlocked (evictedWinnerSummary : String)
  | hallucinationDetected (retryContextHint : String) (tauValues : List ℚ)
      (warning : CorrelatedEnsembleWarning)
  deriving DecidableEq, Repr

/-- `MergeOutput`, the fields the controller and the engine read. -/
structure MergeOutput where
  taskId : String
  resolvedOutput : String
  qConfidence : ℚ
  oracleGatePassed : Option Bool
  tauValues : List ℚ
  iterationVerificationEvents : List VerificationScoredEvent
  waveTokenCost : Nat
  pairwiseCosineMean : Option ℚ
  selectionValidCount : Nat
  deriving DecidableEq, Repr

inductive PipelineOutcome where
  | resolved (merge : MergeOutput)
  | earlyExit (reason : ExitReason)
  | fatal (error : EngineError)
  deriving DecidableEq, Repr

/-- `WaveEvents`, as far as `observe` folds them into the controller. -/
structure WaveEvents where
  verificationEvents : List VerificationScoredEvent
  qualityMeasurement : Option QualityMeasurement
  tauSpreadNext : Option ℚ
  correlatedWarnings : List CorrelatedEnsembleWarning
  filterRatio : ℚ
  prunedEvents : List BranchPrunedEvent
  /-- Proposal texts by explorer id, in the map's iteration order. -/
  waveProposalTexts : List (String × String)
  waveTokenCost : Nat
  bestPassingConstraintReasons : List (String × String)
  deriving DecidableEq, Repr

structure PipelineWaveResult where
  outcome : PipelineOutcome
  events : WaveEvents
  deriving DecidableEq, Repr

/-- `EngineOutput`, the fields that later stages and callers read. -/
structure EngineOutput where
  taskId : String
  resolvedOutput : String
  qConfidence : ℚ
  oracleGatePassed : Option Bool
  verificationEvents : List VerificationScoredEvent
  prunedEvents : List BranchPrunedEvent
  modeCollapseCount : Nat
  correlatedWarnings : List CorrelatedEnsembleWarning
  tokensUsed : Nat
  deriving DecidableEq, Repr

/-- `EngineRunContext`: what a failed run carries along. -/
structure EngineRunContext where
  verificationEvents : List VerificationScoredEvent
  bestPartialText : Option String
  violationFreq : List (String × Nat)
  lastSelectionValidCount : Option Nat
  deriving DecidableEq, Repr

/-- What the instability detector reports. -/
structure InstabilitySignal where
  constraintId : String
  checkIndex : Nat
  score : ℚ
  reasons : List String
  ambiguityEvidence : List String
  ambiguityScore : ℚ
  deriving DecidableEq, Repr

inductive MapeKDecision where
  | return (output : EngineOutput)
  | retry
  | fail (error : EngineError) (context : EngineRunContext)
  | specAmbiguous (signal : InstabilitySignal)
  | complexityOverflow (probeScore : Nat) (rationale : String) (graftFirst : Bool)
  deriving DecidableEq, Repr

def MapeKDecision.isReturn : MapeKDecision → Bool
  | .return _ => true
  | _ => false

def MapeKDecision.isFail : MapeKDecision → Bool
  | .fail _ _ => true
  | _ => false

/-- Returned or given up; no handler of the engine follows. -/
def MapeKDecision.endsRun (decision : MapeKDecision) : Bool := decision.isReturn || decision.isFail

structure TieredExitEvent where
  wave : Nat
  n : Nat
  kRequired : Nat
  kAccepted : Nat
  acceptanceScore : ℚ
  deriving DecidableEq, Repr

structure ConvergenceGateEvent where
  taskId : String
  wave : Nat
  nLive : Nat
  convergenceFraction : ℚ
  thetaConverge : ℚ
  bestScore : ℚ
  deriving DecidableEq, Repr

structure VerifierFrozenEvent where
  constraintId : String
  frozenSinceWave : Nat
  perWaveScores : List ℚ
  sampleReason : String
  bypassed : Bool
  deriving DecidableEq, Repr

structure ConstraintAmbiguityDetectedEvent where
  constraintId : String
  evidence : List String
  finalScore : ℚ
  wave : Nat
  deriving DecidableEq, Repr

end ControlPlane.Source.MapeK
