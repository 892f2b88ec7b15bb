import ControlPlane.Source.MapeK.Controller

/-!
# One wave of the execution pipeline

Embeds `ExecutionPipeline::run` of `crates/h2ai-orchestrator/src/pipeline.rs`
with the oracle phase (`phases/oracle.rs`) and Phase 5a (`phases/synthesis.rs`).
The results of the other phases are answers of the outside world: a run of the
wave is fixed once every phase has answered. Each call of `run_post_selection`
is recorded next to the result.
-/
namespace ControlPlane.Source.Engine

open Constraints Verification Config MapeK

/-- What a run of the engine is given, apart from the outside world. The pre-loop
phases have run: `init` and `probeResult` are what they produced. -/
structure EngineInput where
  cfg : H2AIConfig
  lib : ControllerLib
  init : ControllerInit
  probeResult : Option ComplexityProbeResult
  taskId : String
  constraintCorpus : List ConstraintDoc
  /-- `manifest.require_approval`. -/
  requireApproval : Bool
  /-- `manifest.oracle` is present. -/
  oracle : Bool
  /-- The assessed quadrant is `Complex`. -/
  complexQuadrant : Bool
  /-- A NATS backend, and a raw NATS client for the oracle gate. -/
  nats : Bool
  natsRaw : Bool
  researcherAdapter : Bool
  explorerAdapters : Nat
  synthesisAdapter : Bool
  consensusPasses : Nat

/-! ## Phases -/

inductive StepResult (α : Type) where
  | done (out : α)
  | earlyExit (reason : ExitReason)
  | fatal (error : EngineError)

structure GenerationOutput where
  proposals : List ProposalEvent
  tauValues : List ℚ

structure VerifyOutput where
  diversityCollapsedFallback : Bool
  bestPassingConstraintReasons : List (String × String)

structure AuditOutput where
  synthesisCandidates : List ProposalEvent
  pruned : List BranchPrunedEvent
  iterationVerificationEvents : List VerificationScoredEvent

/-- The outside world of one call of `VerificationPhase::run`. -/
structure VerifierWorld where
  externals : Externals
  json : ScoreJson
  worlds : Nat → Nat → Evaluator

/-- `VerificationPhase::run` on one proposal with a fresh cache. -/
def VerifierWorld.verify (world : VerifierWorld) (config : VerificationConfig)
    (corpus : List ConstraintDoc) (consensusPasses : Nat) (proposal : ProposalEvent) :
    VerificationOutput :=
  (Verification.run world.externals world.json config corpus consensusPasses world.worlds
    [proposal] newEvalCache).1

/-- Answers to Phase 5a. -/
structure SynthesisAnswers where
  /-- `wave_coherence.is_closed()`. -/
  coherenceClosed : Bool
  /-- `SynthesisPhase::run`: text and token cost, `none` for an error. -/
  synthesized : Option (String × Nat)
  explorerId : String
  verifier : VerifierWorld
  /-- Highest score of an individual candidate, at least zero. -/
  maxIndividual : ℚ

structure SynthesisOutput where
  resolvedText : Option String
  synthesisGain : ℚ

/-- What `MergeEngine::resolve` and the attribution contribute to a `MergeOutput`. -/
structure MergeResolution where
  resolvedOutput : String
  qConfidence : ℚ
  pairwiseCosineMean : Option ℚ
  selectionValidCount : Nat

/-- The answers of all phases of one wave. -/
structure WavePhases where
  topology : StepResult Unit
  multiply : StepResult Unit
  diversity : StepResult Unit
  generation : StepResult GenerationOutput
  hallucination : GenerationOutput → StepResult GenerationOutput
  verify : StepResult VerifyOutput
  audit : StepResult AuditOutput
  /-- `gate_passed` of the oracle's reply, `none` for a timeout or an unreadable one. -/
  oracleReply : Option Bool
  synthesis : SynthesisAnswers
  /-- `q_confidence` of the attribution on the synthesis path. -/
  synthesisConfidence : ℚ
  merge : StepResult MergeResolution
  tauExpansionHint : Option ℚ
  postSelectionReply : String → Option Bool

/-! ## Oracle gate -/

inductive PostSelectionDecision where
  | accept | evict | clarify
  deriving DecidableEq, Repr

/-- `apply_on_fail_policy`. -/
def applyOnFailPolicy (gatePassed : Option Bool) (onFail : String) : PostSelectionDecision :=
  match gatePassed with
  | some false =>
      if onFail = "clarify" then .clarify else if onFail = "pass" then .accept else .evict
  | _ => .accept

def gateResult (cfg : OracleGateConfig) (reply : Option Bool) : Bool :=
  reply.getD (decide (cfg.onTimeout = "pass"))

/-- `phases::oracle::run`. -/
def oracleRun (input : EngineInput) (reply : Option Bool) : StepResult (Option Bool) :=
  if input.cfg.oracleGate.enabled && input.natsRaw then
    if gateResult input.cfg.oracleGate reply then .done (some true) else .earlyExit .oracleBlocked
  else .done none

/-- `run_post_selection`. -/
def runPostSelection (input : EngineInput) (reply : Option Bool) : PostSelectionDecision :=
  if input.cfg.oracleGate.enabled && input.natsRaw then
    applyOnFailPolicy (some (gateResult input.cfg.oracleGate reply)) input.cfg.oracleGate.onFail
  else .accept

/-- One call of `run_post_selection` with its answer. -/
structure PostSelectionCall where
  winnerText : String
  decision : PostSelectionDecision
  deriving DecidableEq, Repr

/-! ## Phase 5a -/

/-- `phases::synthesis::run`. It never ends the wave. -/
def synthesisRun (input : EngineInput) (corpus : List ConstraintDoc)
    (candidates : List ProposalEvent) (answers : SynthesisAnswers) : SynthesisOutput :=
  let forced := !input.cfg.synthesis.shadowMode && input.complexQuadrant
  let shouldRun := !answers.coherenceClosed && (input.cfg.synthesis.enabled || forced) &&
    decide (input.cfg.synthesis.minProposals ≤ candidates.length)
  if shouldRun && input.synthesisAdapter then
    match answers.synthesized with
    | none => ⟨none, 0⟩
    | some (text, tokens) =>
        let proposal : ProposalEvent :=
          ⟨input.taskId, answers.explorerId, input.cfg.synthesis.tauValue, 0, text, tokens⟩
        match (answers.verifier.verify input.init.verificationConfig corpus
            input.consensusPasses proposal).passed with
        | [] => ⟨none, 0⟩
        | passed :: _ =>
            ⟨some text, aggregateComplianceScore passed.results - answers.maxIndividual⟩
  else ⟨none, 0⟩

/-! ## The wave -/

/-- A wave's result and the post-selection calls it made. -/
structure WaveRun where
  result : PipelineWaveResult
  postSelections : List PostSelectionCall

/-- `WaveEvents::default`. -/
def noEvents : WaveEvents :=
  { verificationEvents := []
    qualityMeasurement := none
    tauSpreadNext := none
    correlatedWarnings := []
    filterRatio := 1
    prunedEvents := []
    waveProposalTexts := []
    waveTokenCost := 0
    bestPassingConstraintReasons := [] }

/-- The `phase!` macro: go on with the output, or end the wave with the events so far. -/
def phase {α : Type} (events : WaveEvents) (step : StepResult α) (next : α → WaveRun) : WaveRun :=
  match step with
  | .done out => next out
  | .earlyExit reason => ⟨⟨.earlyExit reason, events⟩, []⟩
  | .fatal error => ⟨⟨.fatal error, events⟩, []⟩

def survivalRatio (survivors pruned : Nat) : ℚ :=
  if 0 < survivors + pruned then (survivors : ℚ) / ((survivors + pruned : Nat) : ℚ) else 1

def diversityCollapseFallbackNotice : String :=
  "\n\n---\n**Ensemble Notice — Diversity Gate**\n\n" ++
    "All verified proposals showed identical constraint-satisfaction fingerprints " ++
    "(mean pairwise Hamming distance below threshold). This is expected when all " ++
    "adapters share the same model (Krum-filtered single-model ensemble produces " ++
    "structurally correlated outputs). The highest-scoring independently verified " ++
    "proposal has been selected as the final output. All binary constraint checks " ++
    "were satisfied prior to selection.\n"

def evictedWinnerSummary (taskId : String) : String :=
  "Oracle hard-gate rejected winner for task " ++ taskId ++
    ". Winner text was evicted — do not reproduce the same approach."

/-- What the early phases leave for the end of the wave. -/
structure WaveCarry where
  events : WaveEvents
  params : OptimizerParams
  tauValues : List ℚ
  tokenCost : Nat
  oracleGatePassed : Option Bool
  verify : VerifyOutput
  audit : AuditOutput

/-- Phase 5a resolved the wave: the fast path past the merge. -/
def fastPath (input : EngineInput) (carry : WaveCarry) (phases : WavePhases) (text : String)
    (synthesisGain : ℚ) : WaveRun :=
  let candidates := carry.audit.synthesisCandidates.length
  let events := { carry.events with
    filterRatio := survivalRatio candidates carry.audit.pruned.length
    qualityMeasurement := some ⟨carry.params, phases.synthesisConfidence + synthesisGain⟩
    verificationEvents :=
      carry.events.verificationEvents ++ carry.audit.iterationVerificationEvents }
  let merge : MergeOutput :=
    { taskId := input.taskId
      resolvedOutput := text
      qConfidence := phases.synthesisConfidence
      oracleGatePassed := carry.oracleGatePassed
      tauValues := carry.tauValues
      iterationVerificationEvents := carry.audit.iterationVerificationEvents
      waveTokenCost := carry.tokenCost
      pairwiseCosineMean := none
      selectionValidCount := candidates }
  ⟨⟨.resolved merge, events⟩, []⟩

/-- The `MergeOutput` of the merge phase, with token cost and notice filled in. -/
def mergedOutput (input : EngineInput) (carry : WaveCarry) (resolution : MergeResolution) :
    MergeOutput :=
  { taskId := input.taskId
    resolvedOutput := resolution.resolvedOutput ++
      (if carry.verify.diversityCollapsedFallback then diversityCollapseFallbackNotice else "")
    qConfidence := resolution.qConfidence
    oracleGatePassed := carry.oracleGatePassed
    tauValues := carry.tauValues
    iterationVerificationEvents := carry.audit.iterationVerificationEvents
    waveTokenCost := carry.tokenCost
    pairwiseCosineMean := resolution.pairwiseCosineMean
    selectionValidCount := resolution.selectionValidCount }

/-- Phase 5 and the post-selection gate. -/
def mergePath (input : EngineInput) (carry : WaveCarry) (phases : WavePhases) : WaveRun :=
  let events := { carry.events with
    filterRatio :=
      survivalRatio carry.audit.synthesisCandidates.length carry.audit.pruned.length
    tauSpreadNext := phases.tauExpansionHint
    verificationEvents :=
      carry.events.verificationEvents ++ carry.audit.iterationVerificationEvents }
  phase events phases.merge fun resolution =>
    let merge := mergedOutput input carry resolution
    let events := { events with
      qualityMeasurement := some ⟨carry.params, resolution.qConfidence⟩ }
    if input.cfg.oracleGate.enabled then
      let decision := runPostSelection input (phases.postSelectionReply merge.resolvedOutput)
      let call : PostSelectionCall := ⟨merge.resolvedOutput, decision⟩
      if decision = .evict then
        ⟨⟨.earlyExit (.oraclePostSelectionBlocked (evictedWinnerSummary input.taskId)), events⟩,
          [call]⟩
      else ⟨⟨.resolved merge, events⟩, [call]⟩
    else ⟨⟨.resolved merge, events⟩, []⟩

/-- From the audit on: oracle gate, Phase 5a, merge. -/
def afterAudit (input : EngineInput) (corpus : List ConstraintDoc) (params : OptimizerParams)
    (phases : WavePhases) (events : WaveEvents) (tauValues : List ℚ) (verify : VerifyOutput)
    (audit : AuditOutput) : WaveRun :=
  phase events (oracleRun input phases.oracleReply) fun oracleGatePassed =>
    let events := { events with prunedEvents := events.prunedEvents ++ audit.pruned }
    let carry : WaveCarry :=
      ⟨events, params, tauValues, events.waveTokenCost, oracleGatePassed, verify, audit⟩
    let synthesis := synthesisRun input corpus audit.synthesisCandidates phases.synthesis
    match synthesis.resolvedText with
    | some text => fastPath input carry phases text synthesis.synthesisGain
    | none => mergePath input carry phases

/-- Events that a verification without survivors still reports. -/
def partialEvents : StepResult VerifyOutput → List VerificationScoredEvent
  | .earlyExit (.zeroSurvival _ _ _ _ events) => events
  | _ => []

/-- `ExecutionPipeline::run`. -/
def pipelineRun (input : EngineInput) (corpus : List ConstraintDoc) (params : OptimizerParams)
    (phases : WavePhases) : WaveRun :=
  phase noEvents phases.topology fun _ =>
  phase noEvents phases.multiply fun _ =>
  phase noEvents phases.diversity fun _ =>
  phase noEvents phases.generation fun generated =>
  phase noEvents (phases.hallucination generated) fun gen =>
    let events := { noEvents with
      waveProposalTexts := gen.proposals.map fun p => (p.explorerId, p.rawOutput)
      waveTokenCost := (gen.proposals.map (·.tokenCost)).sum
      verificationEvents := partialEvents phases.verify }
    phase events phases.verify fun verify =>
      let events := { events with
        bestPassingConstraintReasons := verify.bestPassingConstraintReasons }
      phase events phases.audit fun audit =>
        afterAudit input corpus params phases events generated.tauValues verify audit

end ControlPlane.Source.Engine
