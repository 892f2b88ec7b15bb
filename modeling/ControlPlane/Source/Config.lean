import Mathlib.Algebra.Order.Field.Rat
import Mathlib.Algebra.Order.Floor.Semiring
import Mathlib.Data.Rat.Floor

/-!
# Engine configuration

The parts of `H2AIConfig` (`crates/h2ai-config/src/lib.rs`) that the controller
and the engine loop read, with the arithmetic the config types carry. Every
value is arbitrary: nothing below assumes that a config was validated. The
defaults are those of `crates/h2ai-config/reference.toml`.
-/
namespace ControlPlane.Source.Config

/-- `GapK1Config`: instability detection and automated spec repair. -/
structure GapK1Config where
  enabled : Bool
  autoRepairEnabled : Bool
  instabilityThreshold : ℚ
  repairAcceptanceThreshold : ℚ
  probeRuns : Nat
  repairCandidates : Nat
  deriving DecidableEq, Repr

structure AmbiguityDetectionConfig where
  enabled : Bool
  scoreThreshold : ℚ
  weightMultiStorage : ℚ
  weightFmNegation : ℚ
  weightRemediationConflict : ℚ
  weightCrossCheckNegation : ℚ
  weightLlmConfirmed : ℚ
  weightJaccardFreezeWave : ℚ
  weightPositiveExampleConflict : ℚ
  deriving DecidableEq, Repr

structure VerifierFreezeConfig where
  enabled : Bool
  minWavesToDetect : Nat
  scoreVarianceThreshold : ℚ
  reasonJaccardThreshold : ℚ
  reasonWindowSize : Nat
  otherConstraintSuccessThreshold : ℚ
  bypassHardGateOnFreeze : Bool
  emitEventOnly : Bool
  deriving DecidableEq, Repr

structure CostGuardConfig where
  enabled : Bool
  budgetTokensPerTask : Nat
  budgetAbortFraction : ℚ
  deriving DecidableEq, Repr

/-- `fraction_used`: zero when disabled or when the budget is zero. -/
def CostGuardConfig.fractionUsed (cfg : CostGuardConfig) (tokensUsed : Nat) : ℚ :=
  if cfg.budgetTokensPerTask = 0 ∨ cfg.enabled = false then 0
  else (tokensUsed : ℚ) / cfg.budgetTokensPerTask

structure ConvergenceGateConfig where
  enabled : Bool
  thetaConverge : ℚ
  scoreFloor : ℚ
  minWave : Nat
  budgetFloorFraction : ℚ
  deriving DecidableEq, Repr

structure TieredExitConfig where
  enabled : Bool
  minN : Nat
  maxN : Nat
  quorumFraction : ℚ
  acceptanceScore : ℚ
  deriving DecidableEq, Repr

/-- `k_for_wave`: `max(1, ⌈n · quorum_fraction⌉)`. -/
def TieredExitConfig.kForWave (cfg : TieredExitConfig) (n : Nat) : Nat :=
  max ⌈(n : ℚ) * cfg.quorumFraction⌉₊ 1

/-- `n_for_wave`: linear from `min_n` to `max_n`, rounded half away from zero. -/
def TieredExitConfig.nForWave (cfg : TieredExitConfig) (wave maxRetries : Nat) : Nat :=
  if maxRetries = 0 then cfg.maxN
  else
    let frac := (wave : ℚ) / maxRetries
    let n := (cfg.minN : ℤ) + ⌊frac * ((cfg.maxN : ℚ) - cfg.minN) + 1 / 2⌋
    (min (max n cfg.minN) cfg.maxN).toNat

structure IntraRetryDetectorConfig where
  enabled : Bool
  entropyThreshold : ℚ
  retrySlopeThreshold : ℚ
  nEffCgProductThreshold : ℚ
  minRetryCountForDetection : Nat
  deriving DecidableEq, Repr

structure AgentDropoutConfig where
  enabled : Bool
  nEffDropoutThreshold : ℚ
  deriving DecidableEq, Repr

structure ComplexityRoutingConfig where
  enabled : Bool
  decomposeThreshold : Nat
  hitlThreshold : Nat
  intraRetry : IntraRetryDetectorConfig
  minRetriesBeforeGraft : Nat
  agentDropout : AgentDropoutConfig
  deriving DecidableEq, Repr

structure IntegrationWaveConfig where
  enabled : Bool
  plateauThreshold : ℚ
  deriving DecidableEq, Repr

structure OomGuardConfig where
  enabled : Bool
  rssAbortMb : Nat
  checkIntervalWaves : Nat
  deriving DecidableEq, Repr

structure HitlConfig where
  enabled : Bool
  confidenceThreshold : ℚ
  timeoutMs : Nat
  timeoutDecay : ℚ
  timeoutFloorMs : Nat
  deriving DecidableEq, Repr

structure OracleGateConfig where
  enabled : Bool
  onTimeout : String
  onFail : String
  deriving DecidableEq, Repr

/-- The settings of Phase 5a and of the terminal synthesis wave. -/
structure SynthesisConfig where
  enabled : Bool
  minProposals : Nat
  /-- `task_complexity.shadow_mode`: a complex task does not force synthesis. -/
  shadowMode : Bool
  tau : ℚ
  waveEnabled : Bool
  sequentialGraftingEnabled : Bool
  deriving DecidableEq, Repr

/-- `TauValue::new(synthesis_tau)`, or 0.2 outside its range. -/
def SynthesisConfig.tauValue (cfg : SynthesisConfig) : ℚ :=
  if 0 ≤ cfg.tau ∧ cfg.tau ≤ 1 then cfg.tau else 1 / 5

structure EpistemicQualityConfig where
  enabled : Bool
  recoveryEnabled : Bool
  zeroValidProposalsPolicy : String
  outputMode : String
  deriving DecidableEq, Repr

structure ReasoningMemoryConfig where
  enabled : Bool
  strictAuditCheckpoint : Bool
  deriving DecidableEq, Repr

structure H2AIConfig where
  maxAutonomicRetries : Nat
  gapK1 : GapK1Config
  ambiguityDetection : AmbiguityDetectionConfig
  verifierFreeze : VerifierFreezeConfig
  costGuard : CostGuardConfig
  convergenceGate : ConvergenceGateConfig
  tieredExit : TieredExitConfig
  complexityRouting : ComplexityRoutingConfig
  integrationWave : IntegrationWaveConfig
  dppmEnabled : Bool
  csprEnabled : Bool
  diversityThreshold : ℚ
  taoPerTurnFactor : ℚ
  optimizerThresholdFloor : ℚ
  optimizerThresholdStep : ℚ
  modelMaxTokens : Nat
  partialPassOverheadFactor : ℚ
  oomGuard : OomGuardConfig
  hitl : HitlConfig
  signalWaveWindowMs : Nat
  taskDeadlineSecs : Option Nat
  oracleGate : OracleGateConfig
  synthesis : SynthesisConfig
  epistemicQuality : EpistemicQualityConfig
  reasoningMemory : ReasoningMemoryConfig
  deriving DecidableEq, Repr

/-- `H2AIConfig::default`: the embedded `reference.toml`. -/
def H2AIConfig.reference : H2AIConfig :=
  { maxAutonomicRetries := 2
    gapK1 := ⟨false, false, 1 / 10, 9 / 10, 5, 3⟩
    ambiguityDetection :=
      ⟨false, 6 / 10, 20 / 100, 30 / 100, 15 / 100, 20 / 100, 25 / 100, 15 / 100, 35 / 100⟩
    verifierFreeze := ⟨true, 3, 5 / 100, 7 / 10, 10, 1 / 2, true, false⟩
    costGuard := ⟨false, 100000, 1⟩
    convergenceGate := ⟨false, 87 / 100, 8 / 10, 1, 3 / 10⟩
    tieredExit := ⟨false, 1, 5, 1 / 2, 85 / 100⟩
    complexityRouting :=
      ⟨false, 4, 5, ⟨false, 6 / 10, 5 / 100, 3 / 10, 2⟩, 2, ⟨false, 1 / 2⟩⟩
    integrationWave := ⟨true, 2 / 100⟩
    dppmEnabled := false
    csprEnabled := false
    diversityThreshold := 0
    taoPerTurnFactor := 6 / 10
    optimizerThresholdFloor := 3 / 10
    optimizerThresholdStep := 1 / 10
    modelMaxTokens := 32768
    partialPassOverheadFactor := 5
    oomGuard := ⟨true, 4096, 1⟩
    hitl := ⟨true, 1 / 2, 1800000, 1 / 2, 300000⟩
    signalWaveWindowMs := 0
    taskDeadlineSecs := none
    oracleGate := ⟨false, "pass", "evict"⟩
    synthesis := ⟨true, 2, false, 2 / 10, true, false⟩
    epistemicQuality := ⟨true, false, "fail", "passthrough"⟩
    reasoningMemory := ⟨false, false⟩ }

end ControlPlane.Source.Config
