import ControlPlane.Source.MapeK.RepairContext

/-!
# MAPE-K controller

Embeds `MapeKController` of `crates/h2ai-orchestrator/src/mape_k.rs`: the retry
state, `observe`, and `decide` with `handle_exit_reason`, `apply_retry_action`,
`run_apply_optimizer` and `finalize`. Methods that take `&mut self` return the
new controller. Leader election, gap research, retroactive induction and the
assembled contexts do not feed `decide` and are not part of the state; what a
repair context takes from them comes with `RepairSources`.
-/
namespace ControlPlane.Source.MapeK

open Verification Constraints Config

/-- Calibrated ensemble figures, when a calibration exists. -/
structure EnsembleCalibration where
  pMean : ℚ
  rhoMean : ℚ
  nOptimal : Nat
  deriving DecidableEq, Repr

structure MapeKController where
  cfg : H2AIConfig
  taskId : String
  currentParams : OptimizerParams
  qualityHistory : List QualityMeasurement
  nMaxCeiling : Nat
  cgMean : ℚ
  calibrationEnsemble : Option EnsembleCalibration
  forceTopology : Option TopologyKind
  triedTopologies : List TopologyKind
  tauReductionFactor : ℚ
  tauSpreadFactor : ℚ
  tauValuesTried : List (List ℚ)
  retryContext : Option String
  adapterRotationOffset : Nat
  modeCollapseCount : Nat
  lastMultiplicationFailure : Option MultiplicationConditionFailure
  pendingTombstone : Option String
  systemContextWithRubric : String
  taoMaxTurns : Nat
  verificationConfig : VerificationConfig
  allVerificationEvents : List VerificationScoredEvent
  allCorrelatedWarnings : List CorrelatedEnsembleWarning
  allPruned : List BranchPrunedEvent
  lastWavePruned : List BranchPrunedEvent
  prevWavePruned : List BranchPrunedEvent
  ambiguityScorecards : Scorecards
  pendingAmbiguityEvents : List ConstraintAmbiguityDetectedEvent
  globalBestProposal : Option (ℚ × String)
  globalBestPartialProposal : Option (ℚ × String)
  globalBestConstraintReasons : List (String × String)
  complianceScoreHistory : List ℚ
  binaryChecks : List String
  constraintCheckOffsets : List (String × Nat × Nat)
  probeResult : Option ComplexityProbeResult
  corpusSynthesisViable : Bool
  perConstraintWaveScores : List (String × List ℚ)
  verifierReasonHistory : List (String × List String)
  bypassedVerifierConstraints : List String
  pendingFrozenVerifierEvents : List VerifierFrozenEvent
  lastWaveNEff : ℚ
  teeEvent : Option TieredExitEvent
  tokensUsed : Nat
  budgetExhausted : Bool
  convergenceGateEvent : Option ConvergenceGateEvent
  zeroSurvivalCount : Nat

/-- What a repair context reads besides the modelled state: the conflict graph of
the corpus, the cached domain syntheses and the pass hints of the corpus. -/
structure RepairSources where
  conflictPairs : List (String × String)
  domainSyntheses : String → List DomainSynthesis
  corpusPassHint : String → Option String

/-- Functions the controller calls and that are not embedded. -/
structure ControllerLib where
  externals : Externals
  display : AmbiguityEvidence → String
  /-- Iteration orders of the hash maps keyed by constraint id. -/
  walkIds : List String → List String
  walkEntries : List (String × ConstraintEntry) → List (String × ConstraintEntry)
  ln : ℚ → ℚ
  predictQ : PredictQ
  synthesizeTombstone : List ConstraintViolation → Option String
  /-- The sources at the time of a targeted retry, by the wave that is decided. -/
  repairSources : Nat → RepairSources

/-- Text functions over ASCII; maps are walked in insertion order. -/
def asciiLib : ControllerLib :=
  { externals := asciiExternals
    display := fun _ => ""
    walkIds := id
    walkEntries := id
    ln := fun _ => 0
    predictQ := fun _ _ _ _ _ => 0
    synthesizeTombstone := fun _ => none
    repairSources := fun _ => ⟨[], fun _ => [], fun _ => none⟩ }

/-- What the pre-loop phases hand to `MapeKController::new`. -/
structure ControllerInit where
  taskId : String
  initialNAgents : Nat
  nMaxCeiling : Nat
  cgMean : ℚ
  calibrationEnsemble : Option EnsembleCalibration
  systemContextWithRubric : String
  taoMaxTurns : Nat
  verificationConfig : VerificationConfig
  /-- `seed_scorecards` of the corpus. -/
  seedScorecards : List ConstraintDoc → Scorecards

/-- A task of three agents without calibration. -/
def plainInit : ControllerInit :=
  { taskId := "task"
    initialNAgents := 3
    nMaxCeiling := 5
    cgMean := 1 / 2
    calibrationEnsemble := none
    systemContextWithRubric := ""
    taoMaxTurns := 1
    verificationConfig := ⟨1 / 2, "", "", 1 / 10, 1024, 1⟩
    seedScorecards := fun _ => [] }

/-- `MapeKController::new` for the current corpus. -/
def MapeKController.new (cfg : H2AIConfig) (init : ControllerInit)
    (corpus : List ConstraintDoc) : MapeKController :=
  { cfg := cfg
    taskId := init.taskId
    currentParams := ⟨min (max init.initialNAgents 1) (max init.nMaxCeiling 1), init.taoMaxTurns,
      init.verificationConfig.threshold⟩
    qualityHistory := []
    nMaxCeiling := init.nMaxCeiling
    cgMean := init.cgMean
    calibrationEnsemble := init.calibrationEnsemble
    forceTopology := none
    triedTopologies := []
    tauReductionFactor := 1
    tauSpreadFactor := 1
    tauValuesTried := []
    retryContext := none
    adapterRotationOffset := 0
    modeCollapseCount := 0
    lastMultiplicationFailure := none
    pendingTombstone := none
    systemContextWithRubric := init.systemContextWithRubric
    taoMaxTurns := init.taoMaxTurns
    verificationConfig := init.verificationConfig
    allVerificationEvents := []
    allCorrelatedWarnings := []
    allPruned := []
    lastWavePruned := []
    prevWavePruned := []
    ambiguityScorecards := init.seedScorecards corpus
    pendingAmbiguityEvents := []
    globalBestProposal := none
    globalBestPartialProposal := none
    globalBestConstraintReasons := []
    complianceScoreHistory := []
    binaryChecks := corpus.flatMap (·.binaryChecks)
    constraintCheckOffsets := checkOffsets 0 corpus
    probeResult := none
    corpusSynthesisViable := corpus.any fun d => !d.binaryChecks.isEmpty
    perConstraintWaveScores := []
    verifierReasonHistory := []
    bypassedVerifierConstraints := []
    pendingFrozenVerifierEvents := []
    lastWaveNEff := 1
    teeEvent := none
    tokensUsed := 0
    budgetExhausted := false
    convergenceGateEvent := none
    zeroSurvivalCount := 0 }

namespace MapeKController

/-! ## Token accounting and operator input -/

/-- `observe_wave_tokens`, saturating at `u64::MAX`. -/
def observeWaveTokens (c : MapeKController) (waveTokenCost : Nat) : MapeKController :=
  { c with tokensUsed := min (c.tokensUsed + waveTokenCost) (2 ^ 64 - 1) }

def markOomAbort (c : MapeKController) : MapeKController := { c with budgetExhausted := true }

def setProbeResult (c : MapeKController) (result : ComplexityProbeResult) : MapeKController :=
  { c with probeResult := some result }

def nonBlank (text : Option String) : Option String :=
  text.filter fun t => !(Text.trim t.toList).isEmpty

/-- `inject_wave_continue`: operator text is appended to the retry context. -/
def injectWaveContinue (c : MapeKController) (grounding mandateOverride : Option String) :
    MapeKController :=
  let parts := (nonBlank grounding).toList ++
    (nonBlank mandateOverride).toList.map fun m => "MANDATE OVERRIDE: " ++ m
  if parts.isEmpty then c
  else
    let injection := "\n".intercalate parts
    { c with retryContext := some (match c.retryContext with
        | some existing => existing ++ "\n" ++ injection
        | none => injection) }

/-! ## Observe -/

/-- One proposal text of the wave against the cross-wave best trackers. -/
def observeProposal (events : WaveEvents) (c : MapeKController) (entry : String × String) :
    MapeKController :=
  if entry.2 = "" then c
  else
    match events.verificationEvents.find? (fun ev => decide (ev.explorerId = entry.1)) with
    | none => c
    | some ev =>
        let beats := fun best : Option (ℚ × String) => best.all fun b => decide (b.1 < ev.score)
        let c :=
          if beats c.globalBestPartialProposal then
            { c with globalBestPartialProposal := some (ev.score, entry.2) }
          else c
        if ev.passed && beats c.globalBestProposal then
          { c with
            globalBestProposal := some (ev.score, entry.2)
            globalBestConstraintReasons :=
              if events.bestPassingConstraintReasons.isEmpty then c.globalBestConstraintReasons
              else events.bestPassingConstraintReasons }
        else c

/-- Violation scores of the wave, by constraint. -/
def waveConstraintScores (pruned : List BranchPrunedEvent) : List (String × List ℚ) :=
  (pruned.flatMap (·.violatedConstraints)).foldl
    (fun acc v => pushEntry v.constraintId v.score acc) []

/-- The last verifier reason the wave gave for a constraint. -/
def lastReason (pruned : List BranchPrunedEvent) (cid : String) : Option String :=
  (((pruned.flatMap (·.violatedConstraints)).filter fun v => decide (v.constraintId = cid)).filterMap
    (·.verifierReason)).getLast?

/-- Push into a window that holds at most `size` reasons. -/
def pushWindow (size : Nat) (cid reason : String) :
    List (String × List String) → List (String × List String)
  | [] => [(cid, [reason])]
  | (k, window) :: rest =>
      if k = cid then
        (k, (if size ≤ window.length then window.tail else window) ++ [reason]) :: rest
      else (k, window) :: pushWindow size cid reason rest

def observeConstraint (c : MapeKController) (entry : String × List ℚ) : MapeKController :=
  { c with
    perConstraintWaveScores := pushEntry entry.1 (mean entry.2) c.perConstraintWaveScores
    verifierReasonHistory :=
      match lastReason c.lastWavePruned entry.1 with
      | some r => pushWindow c.cfg.verifierFreeze.reasonWindowSize entry.1 r
          c.verifierReasonHistory
      | none => c.verifierReasonHistory }

/-- The accumulators that take the wave's events as they are. -/
def observeEvents (c : MapeKController) (events : WaveEvents)
    (annotated : List BranchPrunedEvent) : MapeKController :=
  { c with
    allVerificationEvents := c.allVerificationEvents ++ events.verificationEvents
    allCorrelatedWarnings := c.allCorrelatedWarnings ++ events.correlatedWarnings
    qualityHistory := c.qualityHistory ++ events.qualityMeasurement.toList
    tauSpreadFactor := events.tauSpreadNext.getD c.tauSpreadFactor
    prevWavePruned := c.lastWavePruned
    lastWavePruned := annotated
    allPruned := c.allPruned ++ annotated }

/-- The mean verification score of the wave joins the compliance history. -/
def observeCompliance (events : WaveEvents) (c : MapeKController) : MapeKController :=
  if events.verificationEvents.isEmpty then c
  else { c with complianceScoreHistory :=
    c.complianceScoreHistory ++ [mean (events.verificationEvents.map (·.score))] }

/-- `observe`: fold one wave into the cross-wave accumulators. -/
def observe (c : MapeKController) (events : WaveEvents) (waveIndex : Nat) : MapeKController :=
  let annotated := events.prunedEvents.map fun ev => { ev with retryCount := waveIndex }
  (waveConstraintScores annotated).foldl observeConstraint
    (observeCompliance events
      (events.waveProposalTexts.foldl (observeProposal events) (observeEvents c events annotated)))

/-! ## Decide -/

/-- `take_run_context`. -/
def takeRunContext (c : MapeKController) : EngineRunContext :=
  { verificationEvents := c.allVerificationEvents
    bestPartialText := (c.globalBestProposal.or c.globalBestPartialProposal).map Prod.snd
    violationFreq := []
    lastSelectionValidCount := none }

/-- `run_apply_optimizer`. -/
def runApplyOptimizer (lib : ControllerLib) (c : MapeKController) (filterRatio : ℚ) :
    MapeKController :=
  let input : SuggestInput := match c.calibrationEnsemble with
    | some ec => ⟨c.nMaxCeiling, some ec.nOptimal, ec.pMean, ec.rhoMean⟩
    | none => ⟨c.nMaxCeiling, none, 1 / 2 + c.cgMean / 2, max 0 (min 1 (1 - c.cgMean))⟩
  let suggested := suggest lib.predictQ c.cfg input filterRatio c.qualityHistory c.currentParams
  { c with
    taoMaxTurns :=
      if suggested.maxTurns ≠ c.currentParams.maxTurns then suggested.maxTurns % 256
      else c.taoMaxTurns
    verificationConfig :=
      if 1 / 1000000000 < |suggested.verifyThreshold - c.currentParams.verifyThreshold| then
        { c.verificationConfig with threshold := suggested.verifyThreshold }
      else c.verificationConfig
    currentParams := suggested }

/-- `RetryWithHints`: the constraint feedback block. -/
def hintContext (c : MapeKController) (retryCount : Nat) (hints : List String) : String :=
  c.systemContextWithRubric ++ "\n\n--- CONSTRAINT FEEDBACK (iteration " ++ toString retryCount ++
    ") ---\nThe following constraints were violated. Fix ALL of these in your next response:\n\n" ++
    "\n\n".intercalate (hints.map fun h => "• " ++ h) ++ "\n\n" ++
    toString (c.cfg.maxAutonomicRetries - retryCount) ++ " retry attempt(s) remaining.\n---"

/-- The prior text of a targeted repair: the best passing proposal, else the best
partial one, when prior repair is enabled. -/
def priorProposal (c : MapeKController) : Option (ℚ × String) :=
  c.globalBestProposal.or c.globalBestPartialProposal

/-- `build_best_passing_pin_hint`. -/
def bestPassingPinHint (sources : RepairSources) (c : MapeKController) (id : String) : PinHint :=
  let dynamic := (c.globalBestConstraintReasons.lookup id).filter (· ≠ "")
  (id, dynamic.or ((sources.corpusPassHint id).filter (· ≠ "")))

/-- The `RepairInput` of a targeted retry. -/
def repairInput (lib : ControllerLib) (c : MapeKController) (targets : List RepairTarget)
    (retryCount : Nat) : RepairInput :=
  let sources := lib.repairSources retryCount
  let failing := targets.map (·.constraintId)
  let conflictsFor := fun id => sources.conflictPairs.filterMap fun pair =>
    if pair.1 = id then some pair.2 else if pair.2 = id then some pair.1 else none
  { priorProposalText :=
      if c.cfg.csprEnabled then ((priorProposal c).map Prod.snd).getD "" else ""
    targets := targets
    zone3Hints := none
    conflictPairs := sources.conflictPairs
    retryCount := retryCount
    attemptsRemaining := c.cfg.maxAutonomicRetries - retryCount
    systemContextWithRubric := c.systemContextWithRubric
    checks := c.binaryChecks
    partialPasses := selectOrthogonalPartials c.allPruned c.binaryChecks c.constraintCheckOffsets 2
      (partialMaxChars c.cfg.modelMaxTokens 2 c.cfg.partialPassOverheadFactor)
    priorBestScore := (priorProposal c).map Prod.fst
    domainSyntheses := targets.flatMap fun t => sources.domainSyntheses t.constraintId
    coupledConstraintHints := ((targets.flatMap fun t => conflictsFor t.constraintId).filter
      (!failing.contains ·)).map (bestPassingPinHint sources c)
    passingConstraintPins := ((c.constraintCheckOffsets.map Prod.fst).filter
      (!failing.contains ·)).map (bestPassingPinHint sources c) }

/-- `apply_retry_action`. -/
def applyRetryAction (lib : ControllerLib) (c : MapeKController) (action : RetryAction)
    (retryCount : Nat) (filterRatio : ℚ) : MapeKDecision × MapeKController :=
  match action with
  | .retry topology =>
      (.retry, runApplyOptimizer lib { c with forceTopology := some topology } filterRatio)
  | .retryWithTauReduction topology tauFactor =>
      (.retry, runApplyOptimizer lib
        { c with
          forceTopology := some topology
          tauReductionFactor := c.tauReductionFactor * tauFactor } filterRatio)
  | .retryWithHints topology hints =>
      (.retry, runApplyOptimizer lib
        { c with
          forceTopology := some topology
          retryContext := if hints.isEmpty then c.retryContext
            else some (hintContext c retryCount hints) } filterRatio)
  | .retryWithTargets topology targets =>
      (.retry, runApplyOptimizer lib
        { c with
          forceTopology := some topology
          retryContext := if targets.isEmpty then c.retryContext
            else some (buildRepairContext (repairInput lib c targets retryCount)) }
        filterRatio)
  | .fail =>
      if c.corpusSynthesisViable && c.cfg.dppmEnabled then
        (.complexityOverflow 0 "frontier exhausted; DPPM-MetaRefine synthesis triggered" true, c)
      else (.fail .maxRetriesExhausted c.takeRunContext, c)

/-- The retry policy on the accumulated state. -/
def policyAction (lib : ControllerLib) (c : MapeKController) (retryCount : Nat) : RetryAction :=
  retryPolicyDecide lib.externals lib.walkEntries retryCount c.triedTopologies c.allPruned

/-- Ask the policy and carry out what it says. -/
def retryByPolicy (lib : ControllerLib) (c : MapeKController) (retryCount : Nat)
    (filterRatio : ℚ) : MapeKDecision × MapeKController :=
  applyRetryAction lib c (policyAction lib c retryCount) retryCount filterRatio

/-- Probe-based routing, before any retry decision. -/
def probeRouting (c : MapeKController) (retryCount : Nat) : Option MapeKDecision :=
  match c.probeResult with
  | none => none
  | some probe =>
      let cfg := c.cfg.complexityRouting
      if cfg.enabled then
        if cfg.hitlThreshold ≤ probe.complexity then
          some (.complexityOverflow probe.complexity probe.rationale false)
        else if cfg.decomposeThreshold ≤ probe.complexity ∧
            cfg.minRetriesBeforeGraft ≤ retryCount ∧ c.corpusSynthesisViable = true then
          some (.complexityOverflow probe.complexity probe.rationale true)
        else none
      else none

/-- `is_compliance_plateau`. -/
def isCompliancePlateau (history : List ℚ) (retryCount : Nat) (threshold : ℚ) : Bool :=
  match history.reverse with
  | curr :: prev :: _ => decide (2 ≤ retryCount) && decide (|curr - prev| < threshold)
  | _ => false

/-- `has_isolation_evidence`: jointly complete, none of them complete alone. -/
def hasIsolationEvidence (partials : List PartialPass) (totalChecks : Nat) : Bool :=
  decide (2 ≤ partials.length) && decide (0 < totalChecks) &&
    !partials.any (fun p => decide (p.passedCheckIndices.card = totalChecks)) &&
    decide ((partials.foldl (fun union (p : PartialPass) => union ∪ p.passedCheckIndices)
      ∅).card = totalChecks)

def boolText (b : Bool) : String := if b then "true" else "false"

/-- Integration-wave trigger of a zero-survival wave. -/
def integrationTrigger (c : MapeKController) (retryCount : Nat) : Option MapeKDecision :=
  if c.cfg.integrationWave.enabled then
    let plateau := isCompliancePlateau c.complianceScoreHistory retryCount
      c.cfg.integrationWave.plateauThreshold
    let isolation := hasIsolationEvidence
      (selectOrthogonalPartials c.allPruned c.binaryChecks c.constraintCheckOffsets 2
        (partialMaxChars c.cfg.modelMaxTokens 2 c.cfg.partialPassOverheadFactor))
      c.binaryChecks.length
    if plateau || isolation then
      some (.complexityOverflow 0
        ("integration wave: plateau=" ++ boolText plateau ++ " isolation=" ++ boolText isolation ++
          " at wave " ++ toString retryCount) true)
    else none
  else none

/-- Ceiling trigger of a zero-survival wave. -/
def ceilingTrigger (lib : ControllerLib) (c : MapeKController) (nEffCosine : Option ℚ)
    (retryCount : Nat) : Option MapeKDecision :=
  let cfg := c.cfg.complexityRouting.intraRetry
  if cfg.enabled = true ∧ cfg.minRetryCountForDetection ≤ retryCount then
    let signals := countCeilingSignals lib.ln cfg c.lastWavePruned
      (c.qualityHistory.map (·.qConfidence)) (nEffCosine.getD 1) c.cgMean
    if 2 ≤ signals then
      some (.complexityOverflow 0
        ("intra-retry: " ++ toString signals ++ "/3 ceiling signals fired at wave " ++
          toString retryCount) (decide (retryCount < 2)))
    else none
  else none

/-- State changes a classified failure mode makes before routing. -/
def applyFailureMode (lib : ControllerLib) (c : MapeKController) :
    Option FailureMode → MapeKController
  | some .modeCollapse =>
      { c with modeCollapseCount := c.modeCollapseCount + 1, pendingTombstone := none }
  | some .constrainedExploration =>
      { c with pendingTombstone :=
          lib.synthesizeTombstone (c.lastWavePruned.flatMap (·.violatedConstraints)) }
  | some (.correlatedHallucination _ _) => c
  | none => c

/-- What the `ZeroSurvival` arm records before it routes. -/
def enterZeroSurvival (lib : ControllerLib) (c : MapeKController)
    (failureMode : Option FailureMode) (tauValues : List ℚ) : MapeKController :=
  applyFailureMode lib { c with tauValuesTried := c.tauValuesTried ++ [tauValues] } failureMode

def countZeroSurvival (c : MapeKController) (nEffCosine : Option ℚ) : MapeKController :=
  { c with
    lastWaveNEff := nEffCosine.getD 1
    zeroSurvivalCount := c.zeroSurvivalCount + 1 }

/-- `MultiplicationFailed` and `DiversityFailed` record the condition that failed. -/
def noteMultiplicationFailure (c : MapeKController) (failure : MultiplicationConditionFailure)
    (tauValues : List ℚ) : MapeKController :=
  { c with
    lastMultiplicationFailure := some failure
    tauValuesTried := c.tauValuesTried ++ [tauValues] }

/-- The `ZeroSurvival` arm. -/
def handleZeroSurvival (lib : ControllerLib) (c : MapeKController)
    (failureMode : Option FailureMode) (nEffCosine : Option ℚ) (tauValues : List ℚ)
    (retryCount : Nat) (filterRatio : ℚ) : MapeKDecision × MapeKController :=
  let c := enterZeroSurvival lib c failureMode tauValues
  match integrationTrigger c retryCount with
  | some decision => (decision, c)
  | none =>
      match ceilingTrigger lib c nEffCosine retryCount with
      | some decision => (decision, c)
      | none => retryByPolicy lib (countZeroSurvival c nEffCosine) retryCount filterRatio

/-- `handle_exit_reason`. -/
def handleExitReason (lib : ControllerLib) (c : MapeKController) (reason : ExitReason)
    (retryCount : Nat) (filterRatio : ℚ) : MapeKDecision × MapeKController :=
  match probeRouting c retryCount with
  | some decision => (decision, c)
  | none =>
      match reason with
      | .multiplicationFailed tauValues failure =>
          retryByPolicy lib (noteMultiplicationFailure c failure tauValues) retryCount 1
      | .diversityFailed nEff tauValues =>
          retryByPolicy lib (noteMultiplicationFailure c
            (.insufficientPoolDiversity nEff c.cfg.diversityThreshold) tauValues) retryCount 1
      | .zeroSurvival failureMode nEffCosine _ tauValues _ =>
          handleZeroSurvival lib c failureMode nEffCosine tauValues retryCount filterRatio
      | .hallucinationDetected hint tauValues warning =>
          (.retry, runApplyOptimizer lib
            { c with
              allCorrelatedWarnings := c.allCorrelatedWarnings ++ [warning]
              retryContext := some hint
              tauValuesTried := c.tauValuesTried ++ [tauValues] } 1)
      | .oraclePostSelectionBlocked summary =>
          (.retry, runApplyOptimizer lib
            { c with
              allCorrelatedWarnings := c.allCorrelatedWarnings ++ [⟨1, 0, retryCount⟩]
              adapterRotationOffset := (c.adapterRotationOffset + 1) % 2 ^ 64
              retryContext := some summary } 1)
      | .oracleBlocked => (.fail .maxRetriesExhausted c.takeRunContext, c)

/-- `finalize`. -/
def finalize (c : MapeKController) (merge : MergeOutput) : EngineOutput :=
  { taskId := merge.taskId
    resolvedOutput := merge.resolvedOutput
    qConfidence := merge.qConfidence
    oracleGatePassed := merge.oracleGatePassed
    verificationEvents := c.allVerificationEvents
    prunedEvents := c.allPruned
    modeCollapseCount := c.modeCollapseCount
    correlatedWarnings := c.allCorrelatedWarnings
    tokensUsed := c.tokensUsed }

/-- The cost guard's abort threshold is reached. -/
def budgetReached (c : MapeKController) : Bool :=
  c.cfg.costGuard.enabled &&
    decide (c.cfg.costGuard.budgetAbortFraction ≤ c.cfg.costGuard.fractionUsed c.tokensUsed)

/-- `check_convergence_gate`. -/
def checkConvergenceGate (cfg : ConvergenceGateConfig) (cosineMean : Option ℚ) (minScore : ℚ)
    (wave nLive : Nat) (budgetFraction : ℚ) : Bool :=
  cfg.enabled && decide (cfg.minWave ≤ wave) &&
    decide (cfg.budgetFloorFraction ≤ budgetFraction) && decide (nLive ≠ 0) &&
    decide (cfg.scoreFloor ≤ minScore) &&
    cosineMean.any fun m => decide (cfg.thetaConverge ≤ m)

def minimumOr (default : ℚ) : List ℚ → ℚ
  | [] => default
  | s :: rest => rest.foldl min s

def convergenceGate (c : MapeKController) (merge : MergeOutput) (retryCount : Nat) :
    Option ConvergenceGateEvent :=
  let live := (merge.iterationVerificationEvents.filter (·.passed)).map (·.score)
  if checkConvergenceGate c.cfg.convergenceGate merge.pairwiseCosineMean (minimumOr 0 live)
      retryCount live.length (c.cfg.costGuard.fractionUsed c.tokensUsed) then
    some ⟨merge.taskId, retryCount, live.length, merge.pairwiseCosineMean.getD 0,
      c.cfg.convergenceGate.thetaConverge, live.foldl max 0⟩
  else none

/-- Accepted proposals of the tiered-exit quorum. -/
def kAccepted (c : MapeKController) (merge : MergeOutput) : Nat :=
  (merge.iterationVerificationEvents.filter fun e =>
    e.passed && decide (c.cfg.tieredExit.acceptanceScore ≤ e.score)).length

/-- The quorum is missed while retries and budget remain. -/
def tieredExitRetries (c : MapeKController) (merge : MergeOutput) (retryCount : Nat) : Bool :=
  c.cfg.tieredExit.enabled &&
    decide (kAccepted c merge < c.cfg.tieredExit.kForWave c.currentParams.nAgents) &&
    decide (retryCount < c.cfg.maxAutonomicRetries) && !c.budgetExhausted

/-- The budget gate of a resolved wave. -/
def noteBudget (c : MapeKController) : MapeKController :=
  if budgetReached c then { c with budgetExhausted := true } else c

/-- The convergence gate records an event and changes nothing else. -/
def noteConvergence (c : MapeKController) (merge : MergeOutput) (retryCount : Nat) :
    MapeKController :=
  match convergenceGate c merge retryCount with
  | some event => { c with convergenceGateEvent := some event }
  | none => c

def noteTieredExit (c : MapeKController) (merge : MergeOutput) (retryCount : Nat) :
    MapeKController :=
  if c.cfg.tieredExit.enabled then
    { c with teeEvent := some ⟨retryCount, c.currentParams.nAgents,
        c.cfg.tieredExit.kForWave c.currentParams.nAgents, kAccepted c merge,
        c.cfg.tieredExit.acceptanceScore⟩ }
  else c

def acceptMerge (c : MapeKController) (merge : MergeOutput) : MapeKController :=
  { c with
    tauValuesTried := c.tauValuesTried ++ [merge.tauValues]
    qualityHistory := c.qualityHistory ++ [⟨c.currentParams, merge.qConfidence⟩] }

/-- The `Resolved` arm. -/
def decideResolved (c : MapeKController) (merge : MergeOutput) (retryCount : Nat) :
    MapeKDecision × MapeKController :=
  let c := noteConvergence (noteBudget c) merge retryCount
  if tieredExitRetries c merge retryCount then (.retry, c)
  else
    let c := acceptMerge (noteTieredExit c merge retryCount) merge
    (.return (finalize c merge), c)

/-- One constraint of the frozen-verifier scan. -/
def checkFrozen (scores : List (String × List ℚ)) (reasons : List (String × List String))
    (retryCount : Nat) (c : MapeKController) (cid : String) : MapeKController :=
  if c.bypassedVerifierConstraints.contains cid then c
  else
    match scores.lookup cid with
    | none => c
    | some own =>
        let others := (scores.filter fun e =>
          decide (e.1 ≠ cid) && !c.bypassedVerifierConstraints.contains e.1).map Prod.snd
        match detectFrozenVerifier c.cfg.verifierFreeze own ((reasons.lookup cid).getD []) others with
        | none => c
        | some (perWave, sample) =>
            let bypassed := c.cfg.verifierFreeze.bypassHardGateOnFreeze &&
              !c.cfg.verifierFreeze.emitEventOnly
            { c with
              pendingFrozenVerifierEvents :=
                c.pendingFrozenVerifierEvents ++ [⟨cid, retryCount, perWave, sample, bypassed⟩]
              bypassedVerifierConstraints :=
                if bypassed then c.bypassedVerifierConstraints ++ [cid]
                else c.bypassedVerifierConstraints }

/-- Frozen-verifier detection over all constraints with a score history. -/
def detectFrozen (lib : ControllerLib) (c : MapeKController) (retryCount : Nat) :
    MapeKController :=
  if c.cfg.verifierFreeze.enabled = true ∧ c.cfg.verifierFreeze.minWavesToDetect ≤ retryCount then
    (lib.walkIds (c.perConstraintWaveScores.map Prod.fst)).foldl
      (checkFrozen c.perConstraintWaveScores c.verifierReasonHistory retryCount) c
  else c

/-- `find_instability` on the controller. -/
def instability (lib : ControllerLib) (c : MapeKController) (wave : Nat) : AmbiguityStep :=
  findInstability lib.display lib.walkIds c.cfg.gapK1 c.cfg.ambiguityDetection
    c.lastWavePruned c.prevWavePruned c.ambiguityScorecards wave

/-- The instability check in front of every decision. -/
def checkInstability (lib : ControllerLib) (c : MapeKController) (wave : Nat) :
    Option InstabilitySignal × MapeKController :=
  if c.cfg.gapK1.enabled then
    let step := instability lib c wave
    (step.signal, { c with
      ambiguityScorecards := step.cards
      pendingAmbiguityEvents := c.pendingAmbiguityEvents ++ step.event.toList })
  else (none, c)

/-- `decide`. -/
def decide (lib : ControllerLib) (c : MapeKController) (outcome : PipelineOutcome)
    (retryCount : Nat) (filterRatio : ℚ) : MapeKDecision × MapeKController :=
  match checkInstability lib c retryCount with
  | (some signal, c) => (.specAmbiguous signal, c)
  | (none, c) =>
      let c := detectFrozen lib c retryCount
      match outcome with
      | .resolved merge => decideResolved c merge retryCount
      | .fatal e => (.fail e ⟨[], none, [], none⟩, c)
      | .earlyExit reason => handleExitReason lib c reason retryCount filterRatio

/-- `take_pending_ambiguity_events`, called after every decision. -/
def takePendingAmbiguityEvents (c : MapeKController) :
    List ConstraintAmbiguityDetectedEvent × MapeKController :=
  (c.pendingAmbiguityEvents, { c with pendingAmbiguityEvents := [] })

end MapeKController

end ControlPlane.Source.MapeK
