import ControlPlane.Source.Engine.TaoLoop
import ControlPlane.Source.Tasks.TaskRun

/-!
# The proposals of a wave

Embeds how the proposals of a wave come about and what becomes of each of them: the
results of `phases/generation.rs`, `phases/verify.rs` with `DiversityGuard::check` of
`diversity.rs`, and `phases/audit.rs`. The world answers the calls of the adapters,
the verdict of `VerificationPhase::run_with_panel` on every proposal, and the auditor;
`phases` and `counters` are what the pipeline and the task store see of that.
-/
namespace ControlPlane.Source.Engine

open Constraints Verification Config MapeK Tasks

/-- Configuration that only these phases read. -/
structure ProposalSettings where
  externals : Externals
  taoConfig : TaoConfig
  diversityFallbackToBest : Bool
  /-- `audit_gate.fail_open_on_parse_error`. -/
  failOpenOnParseError : Bool
  /-- Every explorer adapter is the auditor's own instance. -/
  skipAudit : Bool
  /-- The shadow auditor is strict, or the domain is promoted. -/
  majorityVoteActive : Bool

/-! ## Generation -/

structure Explorer where
  explorerId : String
  tau : ℚ
  bypassTao : Bool
  adapter : ExplorerAdapter

structure GenerationAnswers where
  explorers : List Explorer
  /-- The phase timed out: the number of calls that had come back, by explorer. -/
  timedOut : Option (Nat → Nat)

def Explorer.run (settings : ProposalSettings) (e : Explorer) : TaoRun :=
  taoRun settings.externals settings.taoConfig e.bypassTao e.adapter

/-- `results`: none at all after a timeout. -/
def explorerResults (settings : ProposalSettings) (g : GenerationAnswers) :
    List (Explorer × Except EngineError TaoProposal) :=
  if g.timedOut.isSome then [] else g.explorers.map fun e => (e, (e.run settings).1)

def proposalEvent (input : EngineInput) (retryCount : Nat)
    (result : Explorer × Except EngineError TaoProposal) : Option ProposalEvent :=
  match result.2 with
  | .ok p => some ⟨input.taskId, result.1.explorerId, result.1.tau, retryCount, p.rawOutput,
      p.tokenCost⟩
  | .error _ => none

/-- `phases::generation::run`. -/
def generationRun (input : EngineInput) (settings : ProposalSettings) (retryCount : Nat)
    (g : GenerationAnswers) : GenerationOutput :=
  ⟨(explorerResults settings g).filterMap (proposalEvent input retryCount),
    g.explorers.map (·.tau)⟩

/-- The costs of all explorer calls that came back. -/
def paidCalls (settings : ProposalSettings) (g : GenerationAnswers) : List Nat :=
  match g.timedOut with
  | none => g.explorers.flatMap fun e => (e.run settings).2
  | some back => g.explorers.zipIdx.flatMap fun e => (e.1.run settings).2.take (back e.2)

/-! ## Verification -/

/-- What `run_with_panel` makes of one proposal. -/
structure Judgement where
  results : List ComplianceResult
  passes : Bool
  violations : List ConstraintViolation
  anyCacheHit : Bool

/-- Every proposal goes to one of the two lists, in order. -/
def verificationOutput (judged : Nat → Judgement) (proposals : List ProposalEvent) :
    VerificationOutput :=
  let entries := proposals.zipIdx.map fun p => (p.1, judged p.2)
  { passed := (entries.filter fun e => e.2.passes).map fun e => ⟨e.1, e.2.results, e.2.anyCacheHit⟩
    failed := (entries.filter fun e => !e.2.passes).map fun e =>
      ⟨e.1, e.2.results, e.2.violations, e.2.anyCacheHit⟩ }

/-- What the routing of `run_with_panel` makes of an evaluated proposal. -/
def judgement (scale threshold : ℚ) (e : Evaluated) : Judgement :=
  ⟨e.results, passes scale threshold e, violationsOf scale threshold e.results, e.anyCacheHit⟩

theorem route_judged (scale threshold : ℚ) (evaluated : List Evaluated) :
    ∃ judged, route scale threshold evaluated =
      verificationOutput judged (evaluated.map (·.proposal)) := by
  refine ⟨fun i => (evaluated[i]?.map (judgement scale threshold)).getD ⟨[], false, [], false⟩, ?_⟩
  have hentries : (evaluated.map (·.proposal)).zipIdx.map (fun p => (p.1,
      (evaluated[p.2]?.map (judgement scale threshold)).getD ⟨[], false, [], false⟩)) =
      evaluated.map fun e => (e.proposal, judgement scale threshold e) := by
    apply List.ext_getElem
    · simp
    · intro i hi hi'
      rw [List.length_map] at hi'
      simp [hi']
  rw [route_eq]
  unfold verificationOutput
  rw [hentries]
  dsimp only
  rw [List.filter_map, List.filter_map, List.map_map, List.map_map]
  rfl

/-- Whatever the judges answer, every proposal gets one verdict. -/
theorem runWithPanel_judged (x : Externals) (json : ScoreJson) (config : VerificationConfig)
    (corpus : List ConstraintDoc) (consensusPasses : Nat) (worlds : Nat → Nat → Evaluator)
    (panel : JudgePanel) (cfg : JudgePanelConfig) (proposals : List ProposalEvent)
    (cache : EvalCache) :
    ∃ judged, (runWithPanel x json config corpus consensusPasses worlds panel cfg proposals
      cache).1.1 = verificationOutput judged proposals := by
  unfold runWithPanel
  split
  · obtain ⟨judged, hjudged⟩ := route_judged config.constraintThresholdScale config.threshold
      (evaluateAll x json (config.corpusSettings config.evaluatorSystemPrompt consensusPasses)
        corpus worlds proposals 0 cache).1
    rw [evaluateAll_proposals] at hjudged
    exact ⟨judged, hjudged⟩
  · obtain ⟨judged, hjudged⟩ := route_judged config.constraintThresholdScale config.threshold
      ((panelEvaluations x json config corpus consensusPasses panel cfg proposals).map
        panelEvaluated)
    rw [List.map_map] at hjudged
    have hproposals := panelEvaluations_proposals x json config corpus consensusPasses panel cfg
      proposals
    refine ⟨judged, hjudged.trans ?_⟩
    exact congrArg (verificationOutput judged) hproposals

def fingerprint (p : PassedProposal) : List Bool := p.results.map (·.hardPasses)

def hamming (a b : List Bool) : ℚ := ((a.zip b).countP fun x => x.1 != x.2 : Nat) / a.length

def pairs {α : Type} : List α → List (α × α)
  | [] => []
  | a :: rest => rest.map (fun b => (a, b)) ++ pairs rest

/-- `DiversityGuard::check`: the fingerprints are too close to each other. -/
def diversityCollapsed (threshold : ℚ) (passed : List PassedProposal) : Bool :=
  let fingerprints := passed.map fingerprint
  match fingerprints with
  | first :: _ :: _ =>
      if first.length = 0 ∨ fingerprints.any (fun f => decide (f.length ≠ first.length)) then false
      else
        let distances := (pairs fingerprints).map fun p => hamming p.1 p.2
        decide (distances.sum / distances.length < threshold)
  | _ => false

def fractionalComplianceScore (results : List ComplianceResult) : ℚ :=
  if results.isEmpty then 0 else (results.map (·.score)).sum / results.length

def failedCompliance (scale : ℚ) (bypassed : List String) (f : FailedProposal) : ℚ :=
  if f.results.all fun r => r.hardPassesScaled scale || bypassed.contains r.constraintId then
    aggregateComplianceScore f.results
  else fractionalComplianceScore f.results

def passedEvent (p : PassedProposal) : VerificationScoredEvent :=
  ⟨p.proposal.explorerId, aggregateComplianceScore p.results, true⟩

def failedEvent (scale : ℚ) (bypassed : List String) (f : FailedProposal) :
    VerificationScoredEvent :=
  ⟨f.proposal.explorerId, failedCompliance scale bypassed f, false⟩

def failedBranch (scale : ℚ) (bypassed : List String) (f : FailedProposal) : BranchPrunedEvent :=
  ⟨f.proposal.explorerId,
    "verification compliance " ++ fixedText 2 (failedCompliance scale bypassed f),
    f.proposal.rawOutput, f.violations, 0⟩

/-- The reasons of the best passing proposal; the first one of several wins. -/
def bestReasons (passed : List PassedProposal) : List (String × String) :=
  (passed.foldl (fun best p =>
    let score := aggregateComplianceScore p.results
    if best.1 < score then
      -- a map: of two reasons for one constraint the later one stays
      (score, (p.results.filterMap fun r =>
        (r.verifierReason.filter (· ≠ "")).map fun reason => (r.constraintId, reason)).reverse)
    else best) ((-1 : ℚ), ([] : List (String × String)))).2

/-- One step of `max_by` on the scores; the last one of several wins. -/
def scoredBest (best : Option PassedProposal) (p : PassedProposal) : Option PassedProposal :=
  match best with
  | some b =>
      if aggregateComplianceScore p.results < aggregateComplianceScore b.results then some b
      else some p
  | none => some p

def bestScored (passed : List PassedProposal) : Option ProposalEvent :=
  (passed.foldl scoredBest none).map (·.proposal)

structure VerifyResult where
  proposals : List ProposalEvent
  pruned : List BranchPrunedEvent
  iterationVerificationEvents : List VerificationScoredEvent
  bestPassingConstraintReasons : List (String × String)
  diversityCollapsedFallback : Bool

/-- `phases::verify::run` behind the verdicts. -/
def verifyRun (input : EngineInput) (settings : ProposalSettings) (scale : ℚ)
    (bypassed : List String) (tauValues : List ℚ) (out : VerificationOutput) :
    StepResult VerifyResult :=
  let collapsed := diversityCollapsed input.cfg.diversityThreshold out.passed
  let fallback := collapsed && settings.diversityFallbackToBest && !out.passed.isEmpty
  let events := out.passed.map passedEvent ++ out.failed.map (failedEvent scale bypassed)
  if collapsed && !fallback then .earlyExit (.zeroSurvival none none 0 tauValues events)
  else .done
    { proposals :=
        if fallback then (bestScored out.passed).toList else out.passed.map (·.proposal)
      pruned := out.failed.map (failedBranch scale bypassed)
      iterationVerificationEvents := events
      bestPassingConstraintReasons := bestReasons out.passed
      diversityCollapsedFallback := fallback }

/-- `record_validation` of the phase, in order. -/
def verifyRecords (out : VerificationOutput) : List Bool :=
  out.passed.map (fun _ => true) ++ out.failed.map (fun _ => false)

/-! ## Audit -/

structure AuditResponse where
  approved : Bool
  reason : String
  violated : List String
  deriving DecidableEq, Repr

/-- The primary auditor's answer, `none` for a reply without JSON. -/
inductive AuditorReply where
  | error (message : String)
  | reply (response : Option AuditResponse)

structure AuditAnswer where
  primary : AuditorReply
  /-- `shadow_approved_opt`. -/
  shadow : Option Bool

def primaryResponse (settings : ProposalSettings) (answer : AuditAnswer) :
    Except EngineError AuditResponse :=
  if settings.skipAudit then .ok ⟨true, "", []⟩
  else
    match answer.primary with
    | .error message => .error (.adapter message)
    | .reply (some response) => .ok response
    | .reply none =>
        .ok (if settings.failOpenOnParseError then ⟨true, "", []⟩
          else ⟨false, "auditor parse failure", []⟩)

def rejects (settings : ProposalSettings) (answer : AuditAnswer) (response : AuditResponse) :
    Bool :=
  let shadow := if settings.skipAudit then none else answer.shadow
  if settings.majorityVoteActive then !(response.approved && shadow.getD response.approved)
  else !response.approved

def auditViolation (constraintId : String) : ConstraintViolation :=
  { constraintId := constraintId
    score := 0
    severityLabel := .hard
    remediationHint := none
    constraintDescription := ""
    verifierReason := none
    checkVerdicts := []
    criteriaPass := none
    checkReasons := none }

structure AuditProgress where
  survivors : List ProposalEvent
  pruned : List BranchPrunedEvent
  /-- `record_validation` of the phase, in order. -/
  records : List Bool

/-- One audited proposal. -/
def auditOne (settings : ProposalSettings) (answer : AuditAnswer) (proposal : ProposalEvent)
    (response : AuditResponse) (p : AuditProgress) : AuditProgress :=
  if rejects settings answer response then
    { p with
      pruned := p.pruned ++ [⟨proposal.explorerId, response.reason, "",
        response.violated.map auditViolation, 0⟩]
      records := p.records ++ [false] }
  else
    { p with
      survivors := p.survivors ++ [proposal]
      records := p.records ++ [true] }

/-- The loop over the survivors; an error of the auditor ends it. -/
def auditLoop (settings : ProposalSettings) (answers : Nat → AuditAnswer) :
    Nat → AuditProgress → List ProposalEvent → Option EngineError × AuditProgress
  | _, p, [] => (none, p)
  | i, p, proposal :: rest =>
      match primaryResponse settings (answers i) with
      | .error e => (some e, p)
      | .ok response =>
          auditLoop settings answers (i + 1) (auditOne settings (answers i) proposal response p)
            rest

/-! ## The wave -/

/-- The answers behind the phases of a wave. -/
structure WaveAnswers where
  topology : StepResult Unit
  multiply : StepResult Unit
  diversity : StepResult Unit
  generation : GenerationAnswers
  /-- What others than the wave's explorers have paid for calls of an explorer adapter since
  the wave before: the probe, the leader, the judges, a repair. -/
  otherCalls : List Nat
  /-- The hint and the warning of a correlated ensemble, if there is one. -/
  hallucination : Option (String × CorrelatedEnsembleWarning)
  judged : Nat → Judgement
  bypassedConstraintIds : List String
  audit : Nat → AuditAnswer
  oracleReply : Option Bool
  synthesis : SynthesisAnswers
  synthesisConfidence : ℚ
  merge : StepResult MergeResolution
  tauExpansionHint : Option ℚ
  postSelectionReply : String → Option Bool

def StepResult.map {α β : Type} (f : α → β) : StepResult α → StepResult β
  | .done out => .done (f out)
  | .earlyExit reason => .earlyExit reason
  | .fatal error => .fatal error

def StepResult.isDone {α : Type} : StepResult α → Bool
  | .done _ => true
  | _ => false

namespace StepResult

variable {α β : Type} (f : α → β) (out : α) (reason : ExitReason) (error : EngineError)

@[simp] theorem isDone_done : (done out).isDone = true := rfl

@[simp] theorem isDone_earlyExit : (earlyExit reason : StepResult α).isDone = false := rfl

@[simp] theorem isDone_fatal : (fatal error : StepResult α).isDone = false := rfl

@[simp] theorem isDone_map (step : StepResult α) : (step.map f).isDone = step.isDone := by
  cases step <;> rfl

end StepResult

theorem StepResult.done_of_isDone {α : Type} {step : StepResult α} (h : step.isDone = true) :
    ∃ out, step = .done out := by
  cases step with
  | done out => exact ⟨out, rfl⟩
  | earlyExit reason => cases h
  | fatal error => cases h

/-- A phase that ends the wave leaves the events so far, and no resolution. -/
theorem phase_stops {α : Type} {events : WaveEvents} {step : StepResult α} {next : α → WaveRun}
    (h : ∀ out, step = .done out → (next out).result.events = events ∧
      ∀ merge, (next out).result.outcome ≠ .resolved merge) :
    (phase events step next).result.events = events ∧
      ∀ merge, (phase events step next).result.outcome ≠ .resolved merge := by
  cases step with
  | done out => exact h out rfl
  | earlyExit reason => exact ⟨rfl, fun merge => by rintro ⟨⟩⟩
  | fatal error => exact ⟨rfl, fun merge => by rintro ⟨⟩⟩

/-- Hard thresholds are relaxed from wave to wave. -/
def thresholdScale (retryCount : Nat) : ℚ := (9 / 10) ^ retryCount

section Phases

variable (input : EngineInput) (settings : ProposalSettings) (retryCount : Nat) (a : WaveAnswers)

def waveGeneration : GenerationOutput := generationRun input settings retryCount a.generation

def waveVerdicts : VerificationOutput :=
  verificationOutput a.judged (waveGeneration input settings retryCount a).proposals

def waveVerify : StepResult VerifyResult :=
  verifyRun input settings (thresholdScale retryCount) a.bypassedConstraintIds
    (waveGeneration input settings retryCount a).tauValues
    (waveVerdicts input settings retryCount a)

/-- What the verification leaves for the audit. -/
def auditedProposals : List ProposalEvent :=
  match waveVerify input settings retryCount a with
  | .done out => out.proposals
  | _ => []

/-- The branches the verification has pruned, whether or not the wave goes on. -/
def verifyPruned : List BranchPrunedEvent :=
  (waveVerdicts input settings retryCount a).failed.map
    (failedBranch (thresholdScale retryCount) a.bypassedConstraintIds)

/-- `phases::audit::run`: an error that ends the wave, and how far the loop came. -/
def waveAudit : Option EngineError × AuditProgress :=
  auditLoop settings a.audit 0 ⟨[], verifyPruned input settings retryCount a, []⟩
    (auditedProposals input settings retryCount a)

def auditStep : StepResult AuditOutput :=
  let audited := waveAudit input settings retryCount a
  match audited.1 with
  | some e => .fatal e
  | none => .done
      { synthesisCandidates := audited.2.survivors
        pruned := audited.2.pruned
        iterationVerificationEvents :=
          (waveVerdicts input settings retryCount a).passed.map passedEvent ++
            (waveVerdicts input settings retryCount a).failed.map
              (failedEvent (thresholdScale retryCount) a.bypassedConstraintIds) }

/-- What the pipeline sees. -/
def wavePhases : WavePhases :=
  { topology := a.topology
    multiply := a.multiply
    diversity := a.diversity
    generation := .done (waveGeneration input settings retryCount a)
    hallucination := fun generated =>
      match a.hallucination with
      | some (hint, warning) =>
          .earlyExit (.hallucinationDetected hint generated.tauValues warning)
      | none => .done generated
    verify := (waveVerify input settings retryCount a).map fun out =>
      ⟨out.diversityCollapsedFallback, out.bestPassingConstraintReasons⟩
    audit := auditStep input settings retryCount a
    oracleReply := a.oracleReply
    synthesis := a.synthesis
    synthesisConfidence := a.synthesisConfidence
    merge := a.merge
    tauExpansionHint := a.tauExpansionHint
    postSelectionReply := a.postSelectionReply }

/-- What the task store sees. -/
def waveCounters : WaveCounters :=
  { explorerCount := a.generation.explorers.length
    completed := (explorerResults settings a.generation).length
    verified := verifyRecords (waveVerdicts input settings retryCount a)
    audited := (waveAudit input settings retryCount a).2.records }

/-- The wave gets as far as calling its explorers. -/
def reachesGeneration : Bool := a.topology.isDone && a.multiply.isDone && a.diversity.isDone

/-- The costs of the calls of explorer adapters that came back up to the end of the wave. -/
def waveSpending : List Nat :=
  a.otherCalls ++ if reachesGeneration a then paidCalls settings a.generation else []

def reachesVerification : Bool := reachesGeneration a && a.hallucination.isNone

def reachesAudit : Bool :=
  reachesVerification a && (waveVerify input settings retryCount a).isDone

/-! ## How far a wave goes -/

/-- The events of a wave that goes on to its verification. -/
def generatedEvents : WaveEvents :=
  { noEvents with
    waveProposalTexts := (waveGeneration input settings retryCount a).proposals.map fun p =>
      (p.explorerId, p.rawOutput)
    waveTokenCost := ((waveGeneration input settings retryCount a).proposals.map
      (·.tokenCost)).sum
    verificationEvents := partialEvents (wavePhases input settings retryCount a).verify }

variable (corpus : List ConstraintDoc) (params : OptimizerParams)

variable {a} in
/-- A wave that is not stopped before has its proposals verified. -/
theorem pipelineRun_verifies (h : reachesVerification a = true) :
    pipelineRun input corpus params (wavePhases input settings retryCount a) =
      phase (generatedEvents input settings retryCount a)
        (wavePhases input settings retryCount a).verify fun verify =>
          let events := { generatedEvents input settings retryCount a with
            bestPassingConstraintReasons := verify.bestPassingConstraintReasons }
          phase events (auditStep input settings retryCount a) fun audit =>
            afterAudit input corpus params (wavePhases input settings retryCount a) events
              (waveGeneration input settings retryCount a).tauValues verify audit := by
  unfold reachesVerification reachesGeneration at h
  simp only [Bool.and_eq_true, Option.isNone_iff_eq_none] at h
  obtain ⟨⟨⟨htopology, hmultiply⟩, hdiversity⟩, hcheck⟩ := h
  obtain ⟨_, htopology⟩ := StepResult.done_of_isDone htopology
  obtain ⟨_, hmultiply⟩ := StepResult.done_of_isDone hmultiply
  obtain ⟨_, hdiversity⟩ := StepResult.done_of_isDone hdiversity
  simp only [pipelineRun, wavePhases, htopology, hmultiply, hdiversity, hcheck]
  rfl

variable {a} in
/-- A wave that is stopped before has no events. -/
theorem pipelineRun_stops (h : reachesVerification a = false) :
    (pipelineRun input corpus params (wavePhases input settings retryCount a)).result.events =
        noEvents ∧
      ∀ merge, (pipelineRun input corpus params
        (wavePhases input settings retryCount a)).result.outcome ≠ .resolved merge := by
  unfold pipelineRun
  refine phase_stops fun _ htopology => phase_stops fun _ hmultiply => phase_stops fun _ hdiversity =>
    phase_stops fun generated _ => phase_stops fun gen hgen => ?_
  -- the phases in front of the check are done, so the check is what stops the wave
  have hreached : reachesGeneration a = true := by
    change a.topology = _ at htopology
    change a.multiply = _ at hmultiply
    change a.diversity = _ at hdiversity
    simp [reachesGeneration, htopology, hmultiply, hdiversity, StepResult.isDone]
  cases hcheck : a.hallucination with
  | none => simp [reachesVerification, hreached, hcheck] at h
  | some found => simp [wavePhases, hcheck] at hgen

end Phases

/-- A world whose waves are made of such answers. -/
def withWaves (input : EngineInput) (settings : ProposalSettings) (world : EngineWorld)
    (waves : Nat → Nat → WaveAnswers) : EngineWorld :=
  { world with
    wave := fun restart retryCount => { world.wave restart retryCount with
      phases := wavePhases input settings retryCount (waves restart retryCount) } }

/-! ## A plain wave -/

def plainSettings : ProposalSettings :=
  { externals := asciiExternals
    taoConfig := ⟨3, none, 9 / 10, false⟩
    diversityFallbackToBest := false
    failOpenOnParseError := false
    skipAudit := false
    majorityVoteActive := false }

/-- Its one call comes back and costs this much. -/
def plainExplorer (tokenCost : Nat) : Explorer :=
  ⟨"explorer-1", 1 / 2, false, ⟨fun _ => .ok ⟨"use a jwt", tokenCost⟩, .timeout⟩⟩

/-- One explorer; its proposal passes everything and is resolved. -/
def plainAnswers (tokenCost : Nat) : WaveAnswers :=
  { topology := .done ()
    multiply := .done ()
    diversity := .done ()
    generation := ⟨[plainExplorer tokenCost], none⟩
    otherCalls := []
    hallucination := none
    judged := fun _ => ⟨[], true, [], false⟩
    bypassedConstraintIds := []
    audit := fun _ => ⟨.reply (some ⟨true, "", []⟩), none⟩
    oracleReply := none
    synthesis := ⟨false, none, "explorer-s", plainVerifier, 0⟩
    synthesisConfidence := 1
    merge := .done ⟨"use a jwt", 9 / 10, none, 1⟩
    tauExpansionHint := none
    postSelectionReply := fun _ => none }

end ControlPlane.Source.Engine
