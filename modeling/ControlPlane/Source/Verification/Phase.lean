import ControlPlane.Source.Verification.Corpus
import Mathlib.Algebra.Order.Floor.Semiring
import Mathlib.Data.Rat.Floor

/-!
# Verification phase

Embeds `VerificationPhase::run` and `run_with_panel` of
`crates/h2ai-orchestrator/src/verification.rs` and `aggregate_votes` of
`judge_panel.rs`: how the results of one proposal become a pass, or a failure
with a violation list. The adversarial comparison of `run` is a measurement
that does not affect pruning and is not part of the model.
-/
namespace ControlPlane.Source.Verification

open Constraints

/-- `ProposalEvent`, without adapter kind and time stamp. -/
structure ProposalEvent where
  taskId : String
  explorerId : String
  tau : ℚ
  generation : Nat
  rawOutput : String
  tokenCost : Nat
  deriving DecidableEq, Repr

/-- The values of `severity_label`. -/
inductive SeverityLabel where
  | hard | soft | advisory
  deriving DecidableEq, Repr

def severityLabel : ConstraintSeverity → SeverityLabel
  | .hard _ => .hard
  | .soft _ => .soft
  | .advisory => .advisory

structure ConstraintViolation where
  constraintId : String
  score : ℚ
  severityLabel : SeverityLabel
  remediationHint : Option String
  constraintDescription : String
  verifierReason : Option String
  checkVerdicts : List Bool
  criteriaPass : Option String
  checkReasons : Option (List String)
  deriving DecidableEq, Repr

def violationOf (r : ComplianceResult) : ConstraintViolation :=
  { constraintId := r.constraintId
    score := r.score
    severityLabel := severityLabel r.severity
    remediationHint := r.remediationHint
    constraintDescription := r.constraintDescription
    verifierReason := r.verifierReason
    checkVerdicts := r.checkVerdicts
    criteriaPass := r.criteriaPass
    checkReasons := if r.checkReasons.isEmpty then none else some r.checkReasons }

/-- The filter in front of the violation list: two thresholds, one scaled. -/
def isViolated (scale threshold : ℚ) (r : ComplianceResult) : Bool :=
  !r.hardPassesScaled scale || decide (r.score < threshold)

def violationsOf (scale threshold : ℚ) (results : List ComplianceResult) :
    List ConstraintViolation :=
  (results.filter (isViolated scale threshold)).map violationOf

/-- The fields of `VerificationConfig` the phase reads. -/
structure VerificationConfig where
  threshold : ℚ
  rubric : String
  evaluatorSystemPrompt : String
  evaluatorTau : ℚ
  evaluatorMaxTokens : Nat
  constraintThresholdScale : ℚ
  deriving DecidableEq, Repr

def VerificationConfig.corpusSettings (config : VerificationConfig) (systemPrompt : String)
    (consensusPasses : Nat) : CorpusSettings :=
  { rubric := config.rubric
    systemPrompt := systemPrompt
    tau := config.evaluatorTau
    maxTokens := config.evaluatorMaxTokens
    consensusPasses := consensusPasses
    rubricThreshold := config.threshold }

structure PassedProposal where
  proposal : ProposalEvent
  results : List ComplianceResult
  anyCacheHit : Bool
  deriving DecidableEq, Repr

structure FailedProposal where
  proposal : ProposalEvent
  results : List ComplianceResult
  violations : List ConstraintViolation
  anyCacheHit : Bool
  deriving DecidableEq, Repr

structure VerificationOutput where
  passed : List PassedProposal
  failed : List FailedProposal
  deriving DecidableEq, Repr

/-- One proposal with its final results; `hardFail` is the panel's extra flag. -/
structure Evaluated where
  proposal : ProposalEvent
  results : List ComplianceResult
  hardFail : Bool
  anyCacheHit : Bool
  deriving DecidableEq, Repr

def overallScore (scale : ℚ) (e : Evaluated) : ℚ :=
  let hardGate := !e.hardFail && e.results.all (·.hardPassesScaled scale)
  if hardGate then aggregateComplianceScore e.results else 0

def passes (scale threshold : ℚ) (e : Evaluated) : Bool :=
  decide (threshold ≤ overallScore scale e)

/-- The routing loop: each evaluated proposal is pushed to `passed` or `failed`. -/
def routeLoop (scale threshold : ℚ) :
    List Evaluated → VerificationOutput → VerificationOutput
  | [], out => out
  | e :: rest, out =>
      if passes scale threshold e then
        routeLoop scale threshold rest
          { out with passed := out.passed ++ [⟨e.proposal, e.results, e.anyCacheHit⟩] }
      else
        routeLoop scale threshold rest
          { out with failed := out.failed ++
              [⟨e.proposal, e.results, violationsOf scale threshold e.results, e.anyCacheHit⟩] }

def route (scale threshold : ℚ) (evaluated : List Evaluated) : VerificationOutput :=
  routeLoop scale threshold evaluated ⟨[], []⟩

/-- Evaluation of the proposals of `run`, sharing one cache. `worlds k i` is the
outside world of proposal `k` and constraint `i`. -/
def evaluateAll (x : Externals) (json : ScoreJson) (settings : CorpusSettings)
    (corpus : List ConstraintDoc) (worlds : Nat → Nat → Evaluator) :
    List ProposalEvent → Nat → EvalCache → List Evaluated × EvalCache
  | [], _, cache => ([], cache)
  | proposal :: rest, k, cache =>
      let first := evalAll x json settings corpus proposal.rawOutput (worlds k) cache
      let others := evaluateAll x json settings corpus worlds rest (k + 1) first.2
      (⟨proposal, first.1.1, false, first.1.2⟩ :: others.1, others.2)

/-- `VerificationPhase::run`, with the cache it leaves behind. -/
def run (x : Externals) (json : ScoreJson) (config : VerificationConfig)
    (corpus : List ConstraintDoc) (consensusPasses : Nat) (worlds : Nat → Nat → Evaluator)
    (proposals : List ProposalEvent) (cache : EvalCache) : VerificationOutput × EvalCache :=
  let settings := config.corpusSettings config.evaluatorSystemPrompt consensusPasses
  let evaluated := evaluateAll x json settings corpus worlds proposals 0 cache
  (route config.constraintThresholdScale config.threshold evaluated.1, evaluated.2)

/-! ## Judge panel -/

inductive JudgePersona where
  | literal | contextual | skeptical
  deriving DecidableEq, Repr

def JudgePersona.systemPromptPrefix : JudgePersona → String
  | .literal =>
      "Evaluate this proposal against each constraint exactly as written. " ++
        "Apply no benefit of the doubt; the proposal must satisfy the literal " ++
        "text of each constraint."
  | .contextual =>
      "Evaluate this proposal against each constraint in the spirit of its " ++
        "intent. Tolerate reasonable variation in form as long as the underlying " ++
        "requirement is satisfied."
  | .skeptical =>
      "Evaluate this proposal against each constraint with a high bar for " ++
        "compliance. Only mark a constraint as satisfied when the proposal provides " ++
        "explicit, unambiguous evidence of compliance."

inductive PanelDiversityKind where
  | crossFamily | personaOnly
  deriving DecidableEq, Repr

inductive ConstraintVerdict where
  | pass
  | fail
  | uncertain (votesPass votesFail : Nat)
  deriving DecidableEq, Repr

/-- `aggregate_votes`: quorum for a cross-family panel, unanimity otherwise. -/
def aggregateVotes (votesPass votesFail : Nat) (kind : PanelDiversityKind)
    (quorumFraction : ℚ) : ConstraintVerdict :=
  let total := votesPass + votesFail
  if total = 0 then .uncertain 0 0
  else
    match kind with
    | .crossFamily =>
        let quorum := ⌈(total : ℚ) * quorumFraction⌉₊
        if quorum ≤ votesPass then .pass
        else if quorum ≤ votesFail then .fail
        else .uncertain votesPass votesFail
    | .personaOnly =>
        if votesFail = 0 then .pass
        else if votesPass = 0 then .fail
        else .uncertain votesPass votesFail

structure JudgePanelConfig where
  quorumFraction : ℚ
  uncertaintyWeight : ℚ
  deriving DecidableEq, Repr

/-- One judge: a persona and the adapter behind it, by proposal and constraint. -/
structure JudgeVariant where
  persona : JudgePersona
  worlds : Nat → Nat → Evaluator

structure JudgePanel where
  variants : List JudgeVariant
  diversityKind : PanelDiversityKind

/-- The verdict of the panel on one constraint: `column` holds the result of each
variant. -/
def columnVerdict (scale : ℚ) (kind : PanelDiversityKind) (cfg : JudgePanelConfig)
    (column : List ComplianceResult) : ConstraintVerdict :=
  aggregateVotes (column.filter (·.hardPassesScaled scale)).length
    (column.filter fun r => !r.hardPassesScaled scale).length kind cfg.quorumFraction

/-- The score written for a constraint: a hard Fail is pushed just below its
threshold, an uncertain verdict is discounted. -/
def finalScore (cfg : JudgePanelConfig) (severity : ConstraintSeverity) (avgScore : ℚ) :
    ConstraintVerdict → ℚ
  | .pass => avgScore
  | .fail =>
      match severity with
      | .hard ht => max (ht - 1 / 100) 0
      | _ => 0
  | .uncertain _ _ => avgScore * cfg.uncertaintyWeight

/-- A constraint's final result together with the verdict it came from. -/
structure PanelResult where
  result : ComplianceResult
  verdict : ConstraintVerdict
  deriving DecidableEq, Repr

/-- A hard, certain failure. -/
def PanelResult.isHardFail (p : PanelResult) : Bool :=
  decide (p.verdict = .fail) && p.result.severity.isHard

/-- One iteration of the constraint loop; `refResult` is the first variant's. -/
def panelResult (scale : ℚ) (kind : PanelDiversityKind) (cfg : JudgePanelConfig)
    (refResult : ComplianceResult) (column : List ComplianceResult) : PanelResult :=
  let avgScore := (column.map (·.score)).sum / column.length
  let verdict := columnVerdict scale kind cfg column
  ⟨{ refResult with score := finalScore cfg refResult.severity avgScore verdict }, verdict⟩

/-- All constraints, given the result vectors of the variants. The first vector
fixes how many constraints there are. -/
def panelResults (scale : ℚ) (kind : PanelDiversityKind) (cfg : JudgePanelConfig)
    (variantResults : List (List ComplianceResult)) : List PanelResult :=
  match variantResults with
  | [] => []
  | first :: _ =>
      first.mapIdx fun ci refResult =>
        panelResult scale kind cfg refResult (variantResults.filterMap (·[ci]?))

/-- The result vectors of all variants on one proposal, each with a fresh cache. -/
def variantResults (x : Externals) (json : ScoreJson) (config : VerificationConfig)
    (corpus : List ConstraintDoc) (consensusPasses : Nat) (panel : JudgePanel)
    (proposal : ProposalEvent) (k : Nat) : List (List ComplianceResult) :=
  panel.variants.map fun variant =>
    let systemPrompt :=
      if variant.persona.systemPromptPrefix = "" then config.evaluatorSystemPrompt
      else variant.persona.systemPromptPrefix ++ "\n\n" ++ config.evaluatorSystemPrompt
    (evalAll x json (config.corpusSettings systemPrompt consensusPasses) corpus
      proposal.rawOutput (variant.worlds k) newEvalCache).1.1

/-- The panel's view of every proposal, in order. -/
def panelEvaluations (x : Externals) (json : ScoreJson) (config : VerificationConfig)
    (corpus : List ConstraintDoc) (consensusPasses : Nat) (panel : JudgePanel)
    (cfg : JudgePanelConfig) (proposals : List ProposalEvent) :
    List (ProposalEvent × List PanelResult) :=
  proposals.mapIdx fun k proposal =>
    (proposal, panelResults config.constraintThresholdScale panel.diversityKind cfg
      (variantResults x json config corpus consensusPasses panel proposal k))

def panelEvaluated (entry : ProposalEvent × List PanelResult) : Evaluated :=
  { proposal := entry.1
    results := entry.2.map (·.result)
    hardFail := entry.2.any (·.isHardFail)
    anyCacheHit := false }

def isUncertain : ConstraintVerdict → Bool
  | .uncertain _ _ => true
  | _ => false

/-- The ids of uncertain constraints of one proposal. -/
def uncertainIds (results : List PanelResult) : List String :=
  (results.filter fun p => isUncertain p.verdict).map (·.result.constraintId)

/-- `HashMap::insert` on an association list. -/
def insertEntry (key : String) (value : List String) :
    List (String × List String) → List (String × List String)
  | [] => [(key, value)]
  | (k, v) :: rest => if k = key then (key, value) :: rest else (k, v) :: insertEntry key value rest

def uncertainMap (entries : List (ProposalEvent × List PanelResult)) :
    List (String × List String) :=
  entries.foldl (fun acc entry =>
    let ids := uncertainIds entry.2
    if ids.isEmpty then acc else insertEntry entry.1.explorerId ids acc) []

/-- `VerificationPhase::run_with_panel`. A single variant delegates to `run`. -/
def runWithPanel (x : Externals) (json : ScoreJson) (config : VerificationConfig)
    (corpus : List ConstraintDoc) (consensusPasses : Nat) (worlds : Nat → Nat → Evaluator)
    (panel : JudgePanel) (cfg : JudgePanelConfig) (proposals : List ProposalEvent)
    (cache : EvalCache) : (VerificationOutput × List (String × List String)) × EvalCache :=
  if panel.variants.length = 1 then
    let out := run x json config corpus consensusPasses worlds proposals cache
    ((out.1, []), out.2)
  else
    let entries := panelEvaluations x json config corpus consensusPasses panel cfg proposals
    ((route config.constraintThresholdScale config.threshold (entries.map panelEvaluated),
      uncertainMap entries), cache)

/-! ## Routing -/

def toPassed (e : Evaluated) : PassedProposal := ⟨e.proposal, e.results, e.anyCacheHit⟩

def toFailed (scale threshold : ℚ) (e : Evaluated) : FailedProposal :=
  ⟨e.proposal, e.results, violationsOf scale threshold e.results, e.anyCacheHit⟩

theorem routeLoop_eq (scale threshold : ℚ) (evaluated : List Evaluated)
    (out : VerificationOutput) :
    routeLoop scale threshold evaluated out =
      ⟨out.passed ++ (evaluated.filter (passes scale threshold)).map toPassed,
        out.failed ++ (evaluated.filter fun e => !passes scale threshold e).map
          (toFailed scale threshold)⟩ := by
  induction evaluated generalizing out with
  | nil => simp [routeLoop]
  | cons e rest ih =>
      unfold routeLoop
      cases h : passes scale threshold e with
      | true => simp [h, ih, toPassed]
      | false => simp [h, ih, toFailed]

/-- The loop is a split by the pass test. -/
theorem route_eq (scale threshold : ℚ) (evaluated : List Evaluated) :
    route scale threshold evaluated =
      ⟨(evaluated.filter (passes scale threshold)).map toPassed,
        (evaluated.filter fun e => !passes scale threshold e).map
          (toFailed scale threshold)⟩ := by
  simp [route, routeLoop_eq]

/-! ## Proposals behind the verdicts -/

theorem evaluateAll_proposals (x : Externals) (json : ScoreJson) (settings : CorpusSettings)
    (corpus : List ConstraintDoc) (worlds : Nat → Nat → Evaluator) (proposals : List ProposalEvent)
    (k : Nat) (cache : EvalCache) :
    (evaluateAll x json settings corpus worlds proposals k cache).1.map (·.proposal) =
      proposals := by
  induction proposals generalizing k cache with
  | nil => rfl
  | cons proposal rest ih =>
      simp only [evaluateAll, List.map_cons]
      rw [ih]

theorem panelEvaluations_proposals (x : Externals) (json : ScoreJson)
    (config : VerificationConfig) (corpus : List ConstraintDoc) (consensusPasses : Nat)
    (panel : JudgePanel) (cfg : JudgePanelConfig) (proposals : List ProposalEvent) :
    (panelEvaluations x json config corpus consensusPasses panel cfg proposals).map Prod.fst =
      proposals := by
  apply List.ext_getElem
  · simp [panelEvaluations]
  · intro i _ _
    simp [panelEvaluations]

end ControlPlane.Source.Verification
