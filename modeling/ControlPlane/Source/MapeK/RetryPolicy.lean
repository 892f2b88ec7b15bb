import ControlPlane.Source.MapeK.Instability
import Mathlib.Data.List.Sort

/-!
# Retry policy, optimizer and ceiling detector

Embeds `RetryPolicy::decide` (`crates/h2ai-autonomic/src/retry.rs`),
`SelfOptimizer::suggest` (`self_optimizer.rs`) and `count_ceiling_signals`
(`ceiling_detector.rs`). The natural logarithm and the confidence prediction of
the harness attribution are parameters.
-/
namespace ControlPlane.Source.MapeK

open Verification Constraints Config

/-! ## Retry policy -/

structure RepairTarget where
  constraintId : String
  constraintDescription : String
  remediationHint : Option String
  criteriaPass : Option String
  verifierReasons : List (ℚ × String)
  deriving DecidableEq, Repr

inductive RetryAction where
  | retry (topology : TopologyKind)
  | retryWithTauReduction (topology : TopologyKind) (tauFactor : ℚ)
  | retryWithHints (topology : TopologyKind) (hints : List String)
  | retryWithTargets (topology : TopologyKind) (targets : List RepairTarget)
  | fail
  deriving DecidableEq, Repr

/-- Pareto frontier order. -/
def frontier : List TopologyKind := [.ensemble, .hierarchicalTree none, .teamSwarmHybrid]

def sameVariant : TopologyKind → TopologyKind → Bool
  | .ensemble, .ensemble => true
  | .hierarchicalTree _, .hierarchicalTree _ => true
  | .teamSwarmHybrid, .teamSwarmHybrid => true
  | _, _ => false

def hasTried (tried : List TopologyKind) (candidate : TopologyKind) : Bool :=
  tried.any fun t => sameVariant t candidate

def hallucinationSignals : List String :=
  ["hallucination", "hallucinated", "fabricated", "fabrication", "invented", "made up",
    "does not exist", "incorrect", "inaccurate", "not factual", "fictional", "false claim"]

/-- The selection loop of `top_k_unique_reasons`, best score first. -/
def selectUnique (k : Nat) (dedupThreshold : ℚ) :
    List (ℚ × String) → List (ℚ × String) → List (ℚ × String)
  | chosen, [] => chosen
  | chosen, pair :: rest =>
      let isDup := chosen.any fun c =>
        decide (dedupThreshold < wordJaccard c.2.toList pair.2.toList)
      let chosen' := if isDup then chosen else chosen ++ [pair]
      if k ≤ chosen'.length then chosen' else selectUnique k dedupThreshold chosen' rest

/-- `top_k_unique_reasons`: stable sort by descending score, then dedup. -/
def topKUniqueReasons (pairs : List (ℚ × String)) (k : Nat) (dedupThreshold : ℚ) :
    List (ℚ × String) :=
  selectUnique k dedupThreshold [] (pairs.insertionSort fun a b => b.1 ≤ a.1)

/-- One aggregated constraint: the first violation's texts, all scored reasons. -/
structure ConstraintEntry where
  first : ConstraintViolation
  scoreReasonPairs : List (ℚ × String)
  deriving DecidableEq, Repr

def addViolation (v : ConstraintViolation) :
    List (String × ConstraintEntry) → List (String × ConstraintEntry)
  | [] => [(v.constraintId, ⟨v, (hardReason v).toList.map fun r => (v.score, r.2)⟩)]
  | (k, entry) :: rest =>
      if k = v.constraintId then
        (k, { entry with scoreReasonPairs :=
          entry.scoreReasonPairs ++ (hardReason v).toList.map fun r => (v.score, r.2) }) :: rest
      else (k, entry) :: addViolation v rest

/-- Hard violations of all pruned branches, by constraint. -/
def perConstraint (pruned : List BranchPrunedEvent) : List (String × ConstraintEntry) :=
  ((pruned.flatMap (·.violatedConstraints)).filter fun v =>
    decide (v.severityLabel = .hard)).foldl (fun acc v => addViolation v acc) []

def repairTarget (retryCount : Nat) (entry : String × ConstraintEntry) : RepairTarget :=
  { constraintId := entry.1
    constraintDescription := entry.2.first.constraintDescription
    remediationHint := entry.2.first.remediationHint
    criteriaPass := entry.2.first.criteriaPass
    verifierReasons := topKUniqueReasons entry.2.scoreReasonPairs (retryCount + 1) (7 / 10) }

/-- `RetryPolicy::decide`. `walk` is the iteration order over the constraints. -/
def retryPolicyDecide (x : Externals)
    (walk : List (String × ConstraintEntry) → List (String × ConstraintEntry))
    (retryCount : Nat) (triedTopologies : List TopologyKind) (pruned : List BranchPrunedEvent) :
    RetryAction :=
  let entries := perConstraint pruned
  let hasViolations := !entries.isEmpty
  let hallucinationCount :=
    if hasViolations then 0
    else (pruned.filter fun e => hallucinationSignals.any fun sig =>
      Text.containsText (x.toLowercase e.reason).toList sig.toList).length
  let reduceTau := !hasViolations && !pruned.isEmpty &&
    decide (pruned.length ≤ hallucinationCount * 2)
  match frontier.find? fun candidate => !hasTried triedTopologies candidate with
  | none => .fail
  | some candidate =>
      if hasViolations then
        .retryWithTargets candidate ((walk entries).map (repairTarget retryCount))
      else if reduceTau then .retryWithTauReduction candidate (7 / 10)
      else .retry candidate

/-- With an untried topology left, the policy never gives up. -/
theorem retryPolicyDecide_fail_iff (x : Externals)
    (walk : List (String × ConstraintEntry) → List (String × ConstraintEntry))
    (retryCount : Nat) (tried : List TopologyKind) (pruned : List BranchPrunedEvent) :
    retryPolicyDecide x walk retryCount tried pruned = .fail ↔
      ∀ candidate ∈ frontier, hasTried tried candidate = true := by
  unfold retryPolicyDecide
  cases h : frontier.find? fun candidate => !hasTried tried candidate with
  | none =>
      simp only [true_iff]
      intro candidate member
      have := List.find?_eq_none.mp h candidate member
      simpa using this
  | some candidate =>
      have hmem := List.mem_of_find?_eq_some h
      have huntried := List.find?_some h
      constructor
      · intro hfail
        simp only at hfail
        split at hfail
        · simp at hfail
        · split at hfail <;> simp at hfail
      · intro all
        simp [all candidate hmem] at huntried

/-! ## Self-optimizer -/

structure SuggestInput where
  nMaxCeiling : Nat
  nOptimal : Option Nat
  pMean : ℚ
  rhoMean : ℚ
  deriving DecidableEq, Repr

/-- Predicted confidence of a parameter choice, by `(p, ρ, filter ratio, turn factor)`. -/
abbrev PredictQ := OptimizerParams → ℚ → ℚ → ℚ → ℚ → ℚ

def alreadyTried (candidate : OptimizerParams) (history : List QualityMeasurement) : Bool :=
  history.any fun m => decide (m.params = candidate)

/-- Option A: one more turn, when it helps at least as much as one more agent. -/
def suggestTurns (predict : OptimizerParams → ℚ) (nUpper : Nat)
    (history : List QualityMeasurement) (current : OptimizerParams) : Option OptimizerParams :=
  if current.maxTurns < 4 then
    let candidate := { current with maxTurns := current.maxTurns + 1 }
    let agentCandidate := { current with nAgents := min (current.nAgents + 1) nUpper }
    if predict current < predict candidate ∧ alreadyTried candidate history = false ∧
        predict agentCandidate ≤ predict candidate then some candidate
    else none
  else none

/-- Option B: a lower verification threshold; forced when nothing survived. -/
def suggestThreshold (predict : OptimizerParams → ℚ) (cfg : H2AIConfig) (filterRatio : ℚ)
    (history : List QualityMeasurement) (current : OptimizerParams) : Option OptimizerParams :=
  if cfg.optimizerThresholdFloor < current.verifyThreshold then
    let candidate := { current with
      verifyThreshold := max (current.verifyThreshold - cfg.optimizerThresholdStep)
        cfg.optimizerThresholdFloor }
    if (filterRatio < 1 / 1000000000 ∨ predict current < predict candidate) ∧
        alreadyTried candidate history = false then some candidate
    else none
  else none

/-- Option C: one more agent, up to the ceiling. -/
def suggestAgents (nUpper : Nat) (history : List QualityMeasurement)
    (current : OptimizerParams) : Option OptimizerParams :=
  if current.nAgents < nUpper then
    let candidate := { current with nAgents := current.nAgents + 1 }
    if alreadyTried candidate history = false then some candidate else none
  else none

/-- `SelfOptimizer::suggest`: the first option that applies, else no change. -/
def suggest (predictQ : PredictQ) (cfg : H2AIConfig) (input : SuggestInput) (filterRatio : ℚ)
    (history : List QualityMeasurement) (current : OptimizerParams) : OptimizerParams :=
  let nUpper := match input.nOptimal with
    | some n => min n input.nMaxCeiling
    | none => input.nMaxCeiling
  let predict := fun params =>
    predictQ params input.pMean input.rhoMean filterRatio cfg.taoPerTurnFactor
  ((suggestTurns predict nUpper history current).or
    ((suggestThreshold predict cfg filterRatio history current).or
      (suggestAgents nUpper history current))).getD current

/-! ## Ceiling detector -/

def countIds (ids : List String) : List (String × Nat) :=
  ids.foldl (fun acc id =>
    match acc.lookup id with
    | some _ => acc.map fun e => if e.1 = id then (e.1, e.2 + 1) else e
    | none => acc ++ [(id, 1)]) []

/-- `failure_signature_entropy`, normalised by the logarithm of the support size. -/
def failureSignatureEntropy (ln : ℚ → ℚ) (pruned : List BranchPrunedEvent) : ℚ :=
  let counts := countIds (pruned.flatMap fun e => e.violatedConstraints.map (·.constraintId))
  let total := (counts.map Prod.snd).sum
  if total = 0 then 1
  else
    let entropy := counts.foldl (fun acc c =>
      let p := (c.2 : ℚ) / total
      acc - p * ln p) 0
    if counts.length ≤ 1 then entropy else entropy / ln counts.length

/-- `retry_slope`; `none` stands for the infinite slope of a short history. -/
def retrySlope (history : List ℚ) : Option ℚ :=
  match history.reverse with
  | curr :: prev :: _ => some (if prev = 0 then 0 else (curr - prev) / prev)
  | _ => none

/-- `count_ceiling_signals`: how many of the three signals are active. -/
def countCeilingSignals (ln : ℚ → ℚ) (cfg : IntraRetryDetectorConfig)
    (lastWavePruned : List BranchPrunedEvent) (scoreHistory : List ℚ) (nEff cgMean : ℚ) : Nat :=
  (if failureSignatureEntropy ln lastWavePruned < cfg.entropyThreshold then 1 else 0) +
    (if (retrySlope scoreHistory).any (fun s => decide (s < cfg.retrySlopeThreshold)) then 1
      else 0) +
    (if nEff * cgMean < cfg.nEffCgProductThreshold then 1 else 0)

end ControlPlane.Source.MapeK
