import ControlPlane.Lib.Loops
import ControlPlane.Source.Config
import ControlPlane.Source.Engine.Pipeline
import ControlPlane.Source.Engine.SpecRepair

/-!
# The execution engine

Embeds `ExecutionEngine::run_offline` of `crates/h2ai-orchestrator/src/engine.rs`
from the restart loop on: the wave loop with its exits, the approval gate, the
spec-repair handler, the exhaustion handler and the terminal synthesis wave.

The outside world is a record of answers, named by the restart and the wave they
belong to, so that every run of the program is the run for some world. What the
engine does to its surroundings is a log. The restart loop has no bound of its
own: `restartBody` is one iteration, and `runOffline` takes fuel. Leader
election, gap research, induction and metric events are left out: nothing below
reads what they write.
-/

/-!
## Resume signals and the approval gate

Embeds the signals of `crates/h2ai-types/src/signal.rs`, `resolve_action` of
`crates/h2ai-orchestrator/src/signal_dispatch.rs` and the two places of
`run_offline` that read the task's signal stream: the wave window and the wait
of the approval gate. Both read the same durable consumer: what one of them
leaves on the stream, the next one sees first.
-/
namespace ControlPlane.Source.Engine

inductive SignalPayload where
  | waveContinue (grounding mandateOverride : Option String)
  | approve (approved : Bool) (reviewerNote : Option String) (operatorId : String)
  | unknown
  deriving DecidableEq, Repr

/-- `ResumeSignal`: `timeout_at_ms` is its absolute deadline. -/
structure ResumeSignal where
  payload : SignalPayload
  timeoutAtMs : Nat
  deriving DecidableEq, Repr

inductive ResumeAction where
  | continueToNextWave (grounding mandateOverride : Option String)
  | finalize (approved : Bool) (reviewerNote : Option String) (operatorId : String)
  | ignore
  deriving DecidableEq, Repr

/-- `resolve_action`. -/
def resolveAction : SignalPayload → ResumeAction
  | .waveContinue grounding mandateOverride => .continueToNextWave grounding mandateOverride
  | .approve approved reviewerNote operatorId => .finalize approved reviewerNote operatorId
  | .unknown => .ignore

/-- An item of the signal stream: a signal, or a message that could not be read. -/
inductive StreamItem where
  | signal (signal : ResumeSignal)
  | unreadable
  deriving DecidableEq, Repr

/-! ## Wave window -/

/-- The window takes at most one item; only a live `WaveContinue` is used. -/
def windowAction (items : List StreamItem) (nowMs : Nat) :
    Option (Option String × Option String) :=
  match items with
  | .signal sig :: _ =>
      if nowMs ≤ sig.timeoutAtMs then
        match resolveAction sig.payload with
        | .continueToNextWave grounding mandateOverride => some (grounding, mandateOverride)
        | _ => none
      else none
  | _ => none

/-! ## Approval gate -/

structure GateDecision where
  approved : Bool
  operatorId : String
  reviewerNote : Option String
  timedOut : Bool
  deriving DecidableEq, Repr

/-- An item with the time at which it would be taken from the stream. -/
structure Delivery where
  item : StreamItem
  nowMs : Nat
  deriving DecidableEq, Repr

/-- The wait of the gate. Only the first item is taken: an unreadable one disables
the branch, so that the timeout decides. -/
def signalWait (subscribed : Bool) (deliveries : List Delivery) : GateDecision :=
  if subscribed then
    match deliveries with
    | ⟨.signal sig, nowMs⟩ :: _ =>
        if sig.timeoutAtMs < nowMs then ⟨true, "system:late-signal", none, false⟩
        else
          match resolveAction sig.payload with
          | .finalize approved reviewerNote operatorId =>
              ⟨approved, operatorId, reviewerNote, false⟩
          | _ => ⟨true, "system:non-approve-signal", none, false⟩
    | _ => ⟨true, "system:timeout", some "Auto-approved: review timeout exceeded", true⟩
  else ⟨true, "system:no-sub", none, false⟩

/-- The signal the wait answers to, if it answers to one. -/
def signalTaken : List Delivery → Option Delivery
  | ⟨.signal sig, nowMs⟩ :: _ => some ⟨.signal sig, nowMs⟩
  | _ => none

end ControlPlane.Source.Engine

namespace ControlPlane.Source.Engine

open Constraints Verification Config MapeK Lib

abbrev EngineResult := Except (EngineError × EngineRunContext) EngineOutput

def emptyContext : EngineRunContext := ⟨[], none, [], none⟩

/-! ## Actions and state -/

/-- The approval gate as it was passed: what the stream delivered while it was open,
the delivery it answered to, and the decision. -/
structure GateRecord where
  deliveries : List Delivery
  taken : Option Delivery
  decision : GateDecision
  deriving DecidableEq, Repr

/-- What a run does to its surroundings, and the points the guarantees speak about. -/
inductive EngineAction where
  | wave (retryCount : Nat)
  | postSelection (call : PostSelectionCall)
  | decision (retryCount : Nat) (outcome : PipelineOutcome) (decision : MapeKDecision)
  | markFailed
  | markResolved
  | setAwaitingApproval
  | publishPendingApproval (proposedOutput : String) (qConfidence : ℚ)
  | hitlGate (gate : GateRecord)
  | publishApprovalResolved (decision : GateDecision)
  | repairGuard (constraintId : String)
  | repair (constraintId : String) (outcome : RepairOutcome)
  | deleteSignalConsumer
  deriving DecidableEq

/-- The variables of `run_offline` that live across waves and restarts. -/
structure EngineState where
  constraintCorpus : List ConstraintDoc
  specAmbiguousRestarts : Nat
  violationFreq : List (String × Nat)
  lastSelectionValidCount : Option Nat
  /-- `signal_sub` is present. -/
  signalSub : Bool
  /-- Items of the durable consumer that nobody has taken yet. -/
  stream : List StreamItem
  /-- `hitl_timeouts_fired` of the reasoning checkpoint, while there is one. -/
  reasoningCheckpoint : Option Nat
  log : List EngineAction

def EngineState.note (s : EngineState) (actions : List EngineAction) : EngineState :=
  { s with log := s.log ++ actions }

/-! ## The outside world -/

/-- Answers to `run_epistemic_stage`. -/
structure EpistemicAnswers where
  /-- The text the gap resolver leaves, when it accepted a patch. -/
  patched : Option String
  /-- No provision counts as verified. -/
  noneVerified : Bool
  confidenceLabel : String
  annotations : String
  provisionsReviewed : Nat

/-- Answers while the approval gate is open and after it. -/
structure GateWorld where
  subscribes : Bool
  arrivals : List StreamItem
  /-- Time at which the item of this position would be taken. -/
  clock : Nat → Nat
  checkpointWritten : Bool
  epistemic : EpistemicAnswers

/-- Answers of one wave. -/
structure WaveWorld where
  deadlinePassed : Bool
  phases : WavePhases
  rssMb : Option Nat
  checkpointWritten : Bool
  windowSubscribes : Bool
  windowArrivals : List StreamItem
  windowNowMs : Nat
  gate : GateWorld

/-- Answers of the terminal synthesis wave. -/
structure SynthesisWorld where
  /-- The DPPM merge, `none` when every solver or every merge attempt failed. -/
  dppmMerge : Option String
  /-- The text of the last accepted graft round. -/
  grafted : Option String
  singleShot : Option String
  explorerId : String
  verifier : VerifierWorld

/-- Everything a run asks: by restart, and by wave within it. -/
structure EngineWorld where
  /-- A failure of the phases in front of the loop. -/
  preLoopError : Option EngineError
  subscribes : Bool
  earlySignals : List StreamItem
  wave : Nat → Nat → WaveWorld
  repair : Nat → RepairAnswers
  synthesis : Nat → SynthesisWorld

/-! ## Parts of a wave -/

/-- `n_agents` of the wave: tiered-exit escalation, then agent dropout. -/
def waveAgents (cfg : H2AIConfig) (c : MapeKController) (retryCount : Nat) : Nat :=
  let tee := cfg.tieredExit
  let n :=
    if tee.enabled then
      if retryCount = 0 then
        match cfg.complexityRouting.enabled, c.probeResult with
        | true, some probe => min (max probe.complexity tee.minN) tee.maxN
        | _, _ => tee.minN
      else tee.nForWave retryCount cfg.maxAutonomicRetries
    else c.currentParams.nAgents
  let dropout := cfg.complexityRouting.agentDropout
  if dropout.enabled = true ∧ 2 ≤ retryCount ∧ c.lastWaveNEff < dropout.nEffDropoutThreshold then
    max (n - ⌊(n : ℚ) * (1 - c.lastWaveNEff)⌋₊) (min 3 n)
  else n

def waveParams (cfg : H2AIConfig) (c : MapeKController) (retryCount : Nat) : OptimizerParams :=
  { c.currentParams with nAgents := waveAgents cfg c retryCount }

/-- `violation_freq` after the pruned events of a wave. -/
def countViolations (freq : List (String × Nat)) (pruned : List BranchPrunedEvent) :
    List (String × Nat) :=
  (pruned.flatMap (·.violatedConstraints)).foldl (fun freq v =>
    match freq.lookup v.constraintId with
    | some _ => freq.map fun e => if e.1 = v.constraintId then (e.1, e.2 + 1) else e
    | none => freq ++ [(v.constraintId, 1)]) freq

/-- The engine's own records of a wave. -/
def recordWave (s : EngineState) (retryCount : Nat) (run : WaveRun) : EngineState :=
  { s with
    violationFreq := countViolations s.violationFreq run.result.events.prunedEvents
    lastSelectionValidCount := match run.result.outcome with
      | .resolved merge => some merge.selectionValidCount
      | _ => s.lastSelectionValidCount
    log := s.log ++ .wave retryCount :: run.postSelections.map .postSelection }

/-- The memory guard, on every `check_interval_waves`-th wave. -/
def oomGuard (cfg : OomGuardConfig) (retryCount : Nat) (rssMb : Option Nat)
    (c : MapeKController) : MapeKController :=
  if cfg.enabled = true ∧ retryCount % cfg.checkIntervalWaves = 0 ∧
      rssMb.any (fun rss => decide (cfg.rssAbortMb ≤ rss)) = true then c.markOomAbort
  else c

def waveTokenCost (result : PipelineWaveResult) : Nat :=
  match result.outcome with
  | .resolved merge => merge.waveTokenCost
  | _ => result.events.waveTokenCost

/-- A failed checkpoint write ends the run in strict audit mode only. -/
def checkpointError (input : EngineInput) (s : EngineState) (written : Bool) :
    Option EngineError :=
  if s.reasoningCheckpoint.isSome && input.nats && !written &&
      input.cfg.reasoningMemory.strictAuditCheckpoint then
    some (.checkpointWriteFailed "reasoning checkpoint")
  else none

/-- `subscribe_signals` again, keeping the old stream when it fails. -/
def refreshSub (input : EngineInput) (s : EngineState) (subscribes : Bool) : EngineState :=
  { s with signalSub := (input.nats && subscribes) || s.signalSub }

/-- The wave-boundary window for a `WaveContinue` signal. -/
def waveWindow (input : EngineInput) (world : WaveWorld) (c : MapeKController)
    (s : EngineState) : MapeKController × EngineState :=
  if 0 < input.cfg.signalWaveWindowMs then
    let s := refreshSub input s world.windowSubscribes
    let items := s.stream ++ world.windowArrivals
    if s.signalSub then
      let c := match windowAction items world.windowNowMs with
        | some (grounding, mandateOverride) => c.injectWaveContinue grounding mandateOverride
        | none => c
      (c, { s with stream := items.drop 1 })
    else (c, { s with stream := items })
  else (c, { s with stream := s.stream ++ world.windowArrivals })

def deleteConsumer (input : EngineInput) (s : EngineState) : List EngineAction :=
  if input.nats && s.signalSub then [.deleteSignalConsumer] else []

/-- `take_run_context` with the engine's own diagnostics. -/
def failureContext (c : MapeKController) (s : EngineState) : EngineRunContext :=
  { c.takeRunContext with
    violationFreq := s.violationFreq
    lastSelectionValidCount := s.lastSelectionValidCount }

/-! ## The `Return` arm -/

/-- When the approval gate opens. -/
def needsHitl (input : EngineInput) (out : EngineOutput) : Bool :=
  input.cfg.hitl.enabled && !input.oracle &&
    (input.requireApproval || decide (out.qConfidence < input.cfg.hitl.confidenceThreshold))

/-- What the stream delivers while the gate is open. -/
def gateDeliveries (input : EngineInput) (world : GateWorld) (s : EngineState) : List Delivery :=
  if (refreshSub input s world.subscribes).signalSub then
    (s.stream ++ world.arrivals).mapIdx fun i item => ⟨item, world.clock i⟩
  else []

def gateRecord (input : EngineInput) (world : GateWorld) (s : EngineState) : GateRecord :=
  let deliveries := gateDeliveries input world s
  ⟨deliveries, signalTaken deliveries,
    signalWait (refreshSub input s world.subscribes).signalSub deliveries⟩

/-- What the gate does to its surroundings, from its opening to its decision. -/
def gateActions (input : EngineInput) (out : EngineOutput) (gate : GateRecord) :
    List EngineAction :=
  (.setAwaitingApproval ::
      if input.nats then [.publishPendingApproval out.resolvedOutput out.qConfidence] else []) ++
    .hitlGate gate :: if input.nats then [.publishApprovalResolved gate.decision] else []

/-- The approval gate, up to its decision. -/
def hitlGate (input : EngineInput) (world : GateWorld) (out : EngineOutput) (s : EngineState) :
    GateDecision × EngineState :=
  let gate := gateRecord input world s
  let s := refreshSub input s world.subscribes
  let items := s.stream ++ world.arrivals
  (gate.decision, { s with
    stream := if s.signalSub then items.drop 1 else items
    reasoningCheckpoint := s.reasoningCheckpoint.map fun fired =>
      if gate.decision.timedOut then fired + 1 else 0 }.note (gateActions input out gate))

/-- `render_output`. -/
def renderOutput (mode : String) (answers : EpistemicAnswers) (text : String) : String :=
  if mode = "passthrough" then text
  else
    let header := "> **Epistemic Confidence: " ++ answers.confidenceLabel ++
      "** — h2ai epistemic quality stage\n\n"
    if mode = "audit" then
      header ++ answers.annotations ++ text ++
        ("\n\n---\n> **Epistemic Footer** | Document confidence: " ++ answers.confidenceLabel ++
          " | Provisions reviewed: " ++ toString answers.provisionsReviewed ++ "\n")
    else header ++ text

/-- `run_epistemic_stage`, as far as the output text goes. Without recovery the
resolver handles no gap, so the text stays. -/
def runEpistemicStage (cfg : EpistemicQualityConfig) (answers : EpistemicAnswers)
    (text : String) : String :=
  let finalOutput := if cfg.recoveryEnabled then answers.patched.getD text else text
  if answers.noneVerified = true ∧ cfg.zeroValidProposalsPolicy = "fail" then text
  else renderOutput cfg.outputMode answers finalOutput

/-- The text a returned wave leaves with. -/
def returnedText (input : EngineInput) (world : GateWorld) (out : EngineOutput) : String :=
  if input.cfg.epistemicQuality.enabled then
    runEpistemicStage input.cfg.epistemicQuality world.epistemic out.resolvedOutput
  else out.resolvedOutput

/-- The end of a successful run, behind the gate. -/
def resolveRun (input : EngineInput) (world : GateWorld) (out : EngineOutput)
    (s : EngineState) : EngineResult × EngineState :=
  match checkpointError input s world.checkpointWritten with
  | some e => (.error (e, emptyContext), { s with reasoningCheckpoint := none })
  | none =>
      (.ok { out with resolvedOutput := returnedText input world out },
        { s with reasoningCheckpoint := none }.note (deleteConsumer input s))

def returnArm (input : EngineInput) (world : GateWorld) (out : EngineOutput)
    (s : EngineState) : EngineResult × EngineState :=
  if needsHitl input out then
    let gate := hitlGate input world out s
    if gate.1.approved then resolveRun input world out gate.2
    else
      (.error (.hitlRejected gate.1.operatorId gate.1.reviewerNote, emptyContext),
        gate.2.note (.markFailed :: if input.nats then [.deleteSignalConsumer] else []))
  else resolveRun input world out s

/-! ## The wave loop -/

/-- How the wave loop is left before its last wave. -/
inductive WaveExit where
  | finish (result : EngineResult) (s : EngineState)
  | specAmbiguous (signal : InstabilitySignal) (c : MapeKController) (s : EngineState)
  | graft (c : MapeKController) (s : EngineState)

/-- The `match decision` of the wave loop. -/
def decisionArm (input : EngineInput) (world : WaveWorld) (decision : MapeKDecision)
    (c : MapeKController) (s : EngineState) :
    Round (MapeKController × EngineState) WaveExit :=
  match decision with
  | .return out =>
      let ended := returnArm input world.gate out s
      .stop (.finish ended.1 ended.2)
  | .retry => .next (c, s)
  | .fail e ctx =>
      .stop (.finish (.error (e, ctx)) (s.note (.markFailed :: deleteConsumer input s)))
  | .specAmbiguous signal => .stop (.specAmbiguous signal c s)
  | .complexityOverflow _ _ graftFirst =>
      if graftFirst then .stop (.graft c s)
      else .stop (.finish (.error (.maxRetriesExhausted, failureContext c s)) (s.note [.markFailed]))

section Wave

variable (input : EngineInput) (world : EngineWorld) (restart retryCount : Nat)
  (cs : MapeKController × EngineState)

/-- `pipeline.run` of the wave. -/
def waveRun : WaveRun :=
  pipelineRun input cs.2.constraintCorpus (waveParams input.cfg cs.1 retryCount)
    (world.wave restart retryCount).phases

/-- The controller after it has observed the wave. -/
def observedWave : MapeKController :=
  let run := waveRun input world restart retryCount cs
  (oomGuard input.cfg.oomGuard retryCount (world.wave restart retryCount).rssMb
    (cs.1.observe run.result.events retryCount)).observeWaveTokens (waveTokenCost run.result)

/-- Controller and state in which the wave is decided: behind the wave window. -/
def decisionPoint : MapeKController × EngineState :=
  waveWindow input (world.wave restart retryCount)
    (observedWave input world restart retryCount cs)
    (recordWave cs.2 retryCount (waveRun input world restart retryCount cs))

def waveDecision : MapeKDecision × MapeKController :=
  let run := waveRun input world restart retryCount cs
  (decisionPoint input world restart retryCount cs).1.decide input.lib run.result.outcome
    retryCount run.result.events.filterRatio

/-- The controller behind the decision, its pending reports taken. -/
def decidedController : MapeKController :=
  (waveDecision input world restart retryCount cs).2.takePendingAmbiguityEvents.2

def decidedState : EngineState :=
  (decisionPoint input world restart retryCount cs).2.note
    [.decision retryCount (waveRun input world restart retryCount cs).result.outcome
      (waveDecision input world restart retryCount cs).1]

/-- One wave: run, observe, guards, window, decision. -/
def waveBody : Round (MapeKController × EngineState) WaveExit :=
  let ww := world.wave restart retryCount
  if input.cfg.taskDeadlineSecs.isSome && ww.deadlinePassed then
    .stop (.finish
      (.error (.deadlineExceeded (input.cfg.taskDeadlineSecs.getD 0), emptyContext))
      (cs.2.note [.markFailed]))
  else
    let recorded := recordWave cs.2 retryCount (waveRun input world restart retryCount cs)
    match checkpointError input recorded ww.checkpointWritten with
    | some e => .stop (.finish (.error (e, emptyContext)) recorded)
    | none =>
        decisionArm input ww (waveDecision input world restart retryCount cs).1
          (decidedController input world restart retryCount cs)
          (decidedState input world restart retryCount cs)

end Wave

/-! ## After the wave loop -/

def sortedPartials (partials : List PartialPass) : List PartialPass :=
  partials.insertionSort fun a b => b.score ≤ a.score

/-- The candidate text of the synthesis wave: DPPM, sequential grafting, or one call. -/
def synthesisText (cfg : H2AIConfig) (world : SynthesisWorld) (graft : Bool)
    (partials : List PartialPass) : Option String :=
  let best := (((sortedPartials partials).head?).map (·.proposalText)).getD ""
  if cfg.dppmEnabled && graft then some (world.dppmMerge.getD best)
  else if cfg.synthesis.sequentialGraftingEnabled && decide (1 < partials.length) then
    some (world.grafted.getD best)
  else world.singleShot

/-- `max_by` on scores over the pruned events, for the failure context. -/
def bestPartialText (cfg : H2AIConfig) (allPruned : List BranchPrunedEvent)
    (checks : List String) (offsets : List (String × Nat × Nat)) : Option String :=
  ((allPruned.filterMap fun e => partialPassFromEvent e checks offsets
      (partialMaxChars cfg.modelMaxTokens 1 cfg.partialPassOverheadFactor)).foldl
    (fun best p => match best with
      | some b => if p.score < b.score then some b else some p
      | none => some p) (none : Option PartialPass)).map (·.proposalText)

/-- The merge output of a verified synthesis text. -/
def synthesisMerge (input : EngineInput) (text : String) : MergeOutput :=
  { taskId := input.taskId
    resolvedOutput := text
    qConfidence := 1
    oracleGatePassed := none
    tauValues := [input.cfg.synthesis.tau]
    iterationVerificationEvents := []
    waveTokenCost := 0
    pairwiseCosineMean := none
    selectionValidCount := 1 }

/-- The terminal verification of the synthesis text. -/
def synthesisPasses (input : EngineInput) (world : SynthesisWorld) (c : MapeKController)
    (corpus : List ConstraintDoc) (text : String) : Bool :=
  !(world.verifier.verify c.verificationConfig corpus 1
    ⟨input.taskId, world.explorerId, input.cfg.synthesis.tauValue, 2 ^ 64 - 1, text,
      0⟩).passed.isEmpty

/-- The text the synthesis wave delivers, when it runs and its verification passes. -/
def synthesisWave (input : EngineInput) (world : SynthesisWorld) (graft : Bool)
    (c : MapeKController) (corpus : List ConstraintDoc) : Option String :=
  let checks := corpus.flatMap (·.binaryChecks)
  let partials := selectOrthogonalPartials c.allPruned checks (checkOffsets 0 corpus) 3
    (partialMaxChars input.cfg.modelMaxTokens 3 input.cfg.partialPassOverheadFactor)
  if (input.cfg.synthesis.waveEnabled || graft) && !checks.isEmpty && !partials.isEmpty &&
      (input.synthesisAdapter || decide (0 < input.explorerAdapters)) then
    (synthesisText input.cfg world graft partials).filter (synthesisPasses input world c corpus)
  else none

/-- The context of an exhausted run; a synthesis wave that failed names its best text. -/
def exhaustedContext (input : EngineInput) (graft : Bool) (c : MapeKController)
    (s : EngineState) : EngineRunContext :=
  let corpus := s.constraintCorpus
  let checks := corpus.flatMap (·.binaryChecks)
  let partials := selectOrthogonalPartials c.allPruned checks (checkOffsets 0 corpus) 3
    (partialMaxChars input.cfg.modelMaxTokens 3 input.cfg.partialPassOverheadFactor)
  if (input.cfg.synthesis.waveEnabled || graft) && !checks.isEmpty && !partials.isEmpty then
    { failureContext c s with
      bestPartialText := bestPartialText input.cfg c.allPruned checks (checkOffsets 0 corpus) }
  else failureContext c s

/-- Exhaustion: the task is marked failed, then the synthesis wave may still resolve it. -/
def exhausted (input : EngineInput) (world : EngineWorld) (restart : Nat) (graft : Bool)
    (c : MapeKController) (s : EngineState) : EngineResult × EngineState :=
  let s := s.note (.markFailed :: deleteConsumer input s)
  match synthesisWave input (world.synthesis restart) graft c s.constraintCorpus with
  | some text => (.ok (c.finalize (synthesisMerge input text)), s.note [.markResolved])
  | none => (.error (.maxRetriesExhausted, exhaustedContext input graft c s), s)

/-- The guard of the spec-repair handler. It reports, and the handler goes on. -/
def guardRepair (input : EngineInput) (signal : InstabilitySignal) (s : EngineState) :
    EngineState :=
  if 1 ≤ s.specAmbiguousRestarts ∨ input.cfg.gapK1.autoRepairEnabled = false then
    s.note [.repairGuard signal.constraintId]
  else s

/-- The researcher, or the first explorer. -/
def repairAdapter (input : EngineInput) : Bool :=
  input.researcherAdapter || decide (0 < input.explorerAdapters)

/-- The document an instability signal is about. -/
def affectedDoc (signal : InstabilitySignal) (corpus : List ConstraintDoc) :
    Option ConstraintDoc :=
  corpus.find? fun d => decide (d.id = signal.constraintId)

/-- The advisor's run on the affected document, with the corpus it leaves. -/
def repairRun (input : EngineInput) (world : EngineWorld) (restart : Nat)
    (signal : InstabilitySignal) (corpus : List ConstraintDoc) (doc : ConstraintDoc) :
    RepairOutcome × List ConstraintDoc :=
  repairCorpus input.cfg.gapK1 input.taskId corpus doc signal.checkIndex signal.reasons
    (world.repair restart)

/-- The spec-repair handler. -/
def repairHandler (input : EngineInput) (world : EngineWorld) (restart : Nat)
    (signal : InstabilitySignal) (c : MapeKController) (s : EngineState) :
    Round EngineState (EngineResult × EngineState) :=
  let s := guardRepair input signal s
  if repairAdapter input then
    match affectedDoc signal s.constraintCorpus with
    | none => .stop (.error (.maxRetriesExhausted, failureContext c s), s)
    | some doc =>
        let repaired := repairRun input world restart signal s.constraintCorpus doc
        let s := s.note [.repair signal.constraintId repaired.1]
        match repaired.1 with
        | .repaired _ _ =>
            .next { s with
              constraintCorpus := repaired.2
              specAmbiguousRestarts := s.specAmbiguousRestarts + 1 }
        | .failed _ => .stop (exhausted input world restart false c s)
  else .stop (.error (.maxRetriesExhausted, failureContext c s), s)

/-- The controller an iteration starts with. -/
def freshController (input : EngineInput) (corpus : List ConstraintDoc) : MapeKController :=
  let c := MapeKController.new input.cfg input.init corpus
  match input.probeResult with
  | some probe => c.setProbeResult probe
  | none => c

/-- The wave loop of one iteration. -/
def waveLoop (input : EngineInput) (world : EngineWorld) (restart : Nat) (s : EngineState) :
    Round (MapeKController × EngineState) WaveExit :=
  forRounds (waveBody input world restart) (input.cfg.maxAutonomicRetries + 1) 0
    (freshController input s.constraintCorpus, s)

/-- One iteration of the restart loop. -/
def restartBody (input : EngineInput) (world : EngineWorld) (restart : Nat) (s : EngineState) :
    Round EngineState (EngineResult × EngineState) :=
  match waveLoop input world restart s with
  | .next (c, s) => .stop (exhausted input world restart false c s)
  | .stop (.finish result s) => .stop (result, s)
  | .stop (.specAmbiguous signal c s) => repairHandler input world restart signal c s
  | .stop (.graft c s) => .stop (exhausted input world restart true c s)

/-! ## The run -/

/-- The state in front of the restart loop. -/
def initialState (input : EngineInput) (world : EngineWorld) : EngineState :=
  { constraintCorpus := input.constraintCorpus
    specAmbiguousRestarts := 0
    violationFreq := []
    lastSelectionValidCount := none
    signalSub := input.nats &&
      (input.cfg.hitl.enabled || decide (0 < input.cfg.signalWaveWindowMs)) && world.subscribes
    stream := world.earlySignals
    reasoningCheckpoint := if input.cfg.reasoningMemory.enabled then some 0 else none
    log := [] }

/-- The state at the start of an iteration of the restart loop, if it is reached. -/
def iterationStart (input : EngineInput) (world : EngineWorld) (restart : Nat) :
    Option EngineState :=
  match world.preLoopError with
  | some _ => none
  | none => roundStart (restartBody input world) 0 (initialState input world) restart

/-- `run_offline`, for at most `fuel` iterations of the restart loop. -/
def runOffline (input : EngineInput) (world : EngineWorld) (fuel : Nat) :
    Option (EngineResult × EngineState) :=
  match world.preLoopError with
  | some e => some (.error (e, emptyContext), initialState input world)
  | none =>
      match forRounds (restartBody input world) fuel 0 (initialState input world) with
      | .stop ended => some ended
      | .next _ => none

/-! ## A plain task -/

/-- The reference config, one explorer, no corpus and no NATS. -/
def plainInput : EngineInput :=
  { cfg := .reference
    lib := asciiLib
    init := plainInit
    probeResult := none
    taskId := "task"
    constraintCorpus := []
    requireApproval := false
    oracle := false
    complexQuadrant := false
    nats := false
    natsRaw := false
    researcherAdapter := false
    explorerAdapters := 1
    synthesisAdapter := false
    consensusPasses := 1 }

def plainVerifier : VerifierWorld :=
  { externals := asciiExternals
    json := ⟨fun _ => none, fun _ => none⟩
    worlds := fun _ _ => ⟨fun _ _ _ => ⟨none, false⟩, fun _ _ _ _ _ => none⟩ }

/-- Every phase succeeds, and the merge resolves to `text`. -/
def plainPhases (text : String) : WavePhases :=
  { topology := .done ()
    multiply := .done ()
    diversity := .done ()
    generation := .done ⟨[], []⟩
    hallucination := .done
    verify := .done ⟨false, []⟩
    audit := .done ⟨[], [], []⟩
    oracleReply := none
    synthesis := ⟨false, none, "explorer-s", plainVerifier, 0⟩
    synthesisConfidence := 1
    merge := .done ⟨text, 9 / 10, none, 1⟩
    tauExpansionHint := none
    postSelectionReply := fun _ => none }

def sessionDoc : ConstraintDoc :=
  { id := "C-SESSION"
    sourceFile := "C-SESSION.yaml"
    description := "stateless sessions"
    severity := .hard (1 / 2)
    predicate := .vocabularyPresence .anyOf ["jwt"]
    remediationHint := none
    domains := []
    mandatoryForTags := []
    relatedTo := []
    binaryChecks := ["names the token", "names the issuer"]
    version := 1
    repairProvenance := none
    passCriteria := none }

/-- A draft that passes one of the two checks. -/
def prunedDraft (verifierReason : Option String) : BranchPrunedEvent :=
  { explorerId := "explorer-1"
    reason := "no issuer"
    rawOutput := "use a jwt"
    violatedConstraints :=
      [⟨"C-SESSION", 1 / 2, .hard, none, "stateless sessions", verifierReason, [true, false],
        none, none⟩]
    retryCount := 0 }

/-- No signal arrives and nothing is patched. -/
def plainWave (phases : WavePhases) : WaveWorld :=
  { deadlinePassed := false
    phases := phases
    rssMb := none
    checkpointWritten := true
    windowSubscribes := false
    windowArrivals := []
    windowNowMs := 0
    gate := ⟨false, [], fun _ => 0, true, ⟨none, false, "high", "", 0⟩⟩ }

/-- No draft of the wave survives. -/
def prunedWave (verifierReason : Option String) : WaveWorld :=
  plainWave { plainPhases "" with
    audit := .done ⟨[], [prunedDraft verifierReason], []⟩
    merge := .earlyExit (.zeroSurvival none none 0 [] []) }

/-- The same wave each time, and no answer to a repair or a synthesis request. -/
def plainWorld (wave : WaveWorld) : EngineWorld :=
  { preLoopError := none
    subscribes := false
    earlySignals := []
    wave := fun _ _ => wave
    repair := fun _ => ⟨none, fun _ => 0, 0⟩
    synthesis := fun _ => ⟨none, none, none, "explorer-s", plainVerifier⟩ }

end ControlPlane.Source.Engine
