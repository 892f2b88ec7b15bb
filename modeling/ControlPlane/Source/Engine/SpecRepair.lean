import ControlPlane.Source.Constraints.Types
import ControlPlane.Source.MapeK.Instability

/-!
# Automated spec repair

Embeds the repair path of an ambiguous check: the minimal specs that
`run_offline` (`crates/h2ai-orchestrator/src/engine.rs`) builds from its corpus,
the in-memory `NatsVersionedSource` (`crates/h2ai-constraints/src/nats_versioned.rs`)
they are written to, `SpecRepairAdvisor::run`
(`crates/h2ai-autonomic/src/spec_repair.rs`) and the reload of the corpus. The
language model is a parameter: its reply to the rewrite request, and the
consistency the coherence probe measures for each candidate.
-/
namespace ControlPlane.Source.Engine

open Constraints Config MapeK

/-! ## Versioned source -/

/-- `NatsVersionedSource` over an `InMemorySource`, without a KV store. -/
structure VersionedSource where
  specs : List SemanticSpec
  overrides : List (String × SemanticSpec)
  deriving DecidableEq, Repr

namespace VersionedSource

def newInMemory (specs : List SemanticSpec) : VersionedSource := ⟨specs, []⟩

/-- `load_all`: inner order, an override in place of its spec. -/
def loadAll (source : VersionedSource) : List SemanticSpec :=
  source.specs.map fun spec => (source.overrides.lookup spec.id).getD spec

/-- `load_latest_versioned`. -/
def loadLatest (source : VersionedSource) (id : String) : Option SemanticSpec :=
  (source.overrides.lookup id).or (source.specs.find? fun s => decide (s.id = id))

/-- `create_next_version`: compare-and-set on the current version. -/
def createNextVersion (source : VersionedSource) (id : String) (expectedVersion : Nat)
    (spec : SemanticSpec) (provenance : RepairProvenance) : Option (Nat × VersionedSource) :=
  let newVersion := expectedVersion + 1
  let written := { spec with version := newVersion, repairProvenance := some provenance }
  let current := ((source.loadLatest id).map (·.version)).getD 1
  if current = expectedVersion then
    some (newVersion, { source with overrides := (id, written) :: source.overrides })
  else none

end VersionedSource

/-! ## Repair advisor -/

structure RepairInput where
  taskId : String
  constraintId : String
  checkIndex : Nat
  originalCheckText : String
  divergentReasons : List String
  currentVersion : Nat

/-- What the outside world answers during one repair. -/
structure RepairAnswers where
  /-- The model's output, `none` for an adapter error. -/
  reply : Option String
  /-- `CoherenceProbe` consistency of the candidate with this number. -/
  consistency : Nat → ℚ
  nowMs : Nat

inductive RepairOutcome where
  | repaired (newVersion : Nat) (acceptedRewrite : String)
  | failed (bestScore : ℚ)
  deriving DecidableEq, Repr

/-- `generate_candidates`: the non-blank lines of the reply, trimmed. -/
def generateCandidates (cfg : GapK1Config) (answers : RepairAnswers) : List String :=
  match answers.reply with
  | none => []
  | some output =>
      (((output.toList.splitOnP (· == '\n')).map fun l => String.ofList (Text.trim l)).filter
        fun l => !l.isEmpty).take cfg.repairCandidates

/-- The probe loop: the first candidate of the highest positive consistency. -/
def probeCandidates (consistency : Nat → ℚ) :
    Nat → List String → ℚ × Option String → ℚ × Option String
  | _, [], best => best
  | i, candidate :: rest, best =>
      probeCandidates consistency (i + 1) rest
        (if best.1 < consistency i then (consistency i, some candidate) else best)

def repairProvenance (input : RepairInput) (nowMs : Nat) (rewrite : String) (bestScore : ℚ) :
    RepairProvenance :=
  { triggeredByTask := input.taskId
    triggeredAtMs := nowMs
    instabilityScore := meanPairwiseJaccard input.divergentReasons
    originalCheckIndex := input.checkIndex
    originalCheckText := input.originalCheckText
    simplifiedCheckText := rewrite
    validationConsistency := bestScore }

/-- The write of the repaired spec, retried once on a version conflict. -/
def writeRepair (source : VersionedSource) (input : RepairInput) (spec : SemanticSpec)
    (provenance : RepairProvenance) (rewrite : String) (bestScore : ℚ) :
    RepairOutcome × VersionedSource :=
  match source.createNextVersion input.constraintId input.currentVersion spec provenance with
  | some (version, next) => (.repaired version rewrite, next)
  | none =>
      match source.loadLatest input.constraintId with
      | none => (.failed bestScore, source)
      | some fresh =>
          if input.currentVersion < fresh.version then (.repaired fresh.version rewrite, source)
          else
            match source.createNextVersion input.constraintId fresh.version spec provenance with
            | some (version, next) => (.repaired version rewrite, next)
            | none => (.failed bestScore, source)

/-- `SpecRepairAdvisor::run`. -/
def advisorRun (cfg : GapK1Config) (input : RepairInput) (source : VersionedSource)
    (answers : RepairAnswers) : RepairOutcome × VersionedSource :=
  let candidates := generateCandidates cfg answers
  if candidates.isEmpty then (.failed 0, source)
  else
    let best := probeCandidates answers.consistency 0 candidates (0, none)
    if best.1 < cfg.repairAcceptanceThreshold then (.failed best.1, source)
    else
      match best.2 with
      | none => (.failed best.1, source)
      | some rewrite =>
          match source.loadLatest input.constraintId with
          | none => (.failed best.1, source)
          | some spec =>
              if input.checkIndex < spec.rubric.checks.length then
                let repaired := { spec with rubric := { spec.rubric with
                  checks := spec.rubric.checks.set input.checkIndex rewrite } }
                writeRepair source input repaired
                  (repairProvenance input answers.nowMs rewrite best.1) rewrite best.1
              else (.failed best.1, source)

/-! ## The corpus around it -/

/-- The minimal spec `run_offline` builds from a compiled document. -/
def minimalSpec (doc : ConstraintDoc) : SemanticSpec :=
  { id := doc.id
    title := doc.description
    sourceFile := doc.sourceFile
    severity := doc.severity
    domains := doc.domains
    mandatoryForTags := doc.mandatoryForTags
    relatedTo := doc.relatedTo
    remediationHint := doc.remediationHint
    exclusions := []
    requirements := []
    orderings := []
    rubric := ⟨doc.description, none, "", doc.binaryChecks, [], [], []⟩
    version := doc.version
    repairProvenance := doc.repairProvenance }

/-- The source of a repair of `doc`: its spec stands for every document of its id. -/
def repairSource (corpus : List ConstraintDoc) (doc : ConstraintDoc) : VersionedSource :=
  .newInMemory (corpus.map fun d => if d.id = doc.id then minimalSpec doc else minimalSpec d)

def repairInput (taskId : String) (doc : ConstraintDoc) (checkIndex : Nat)
    (divergentReasons : List String) : RepairInput :=
  { taskId := taskId
    constraintId := doc.id
    checkIndex := checkIndex
    originalCheckText := (doc.binaryChecks[checkIndex]?).getD ""
    divergentReasons := divergentReasons
    currentVersion := doc.version }

/-- The repair of `doc` with the corpus a `Repaired` outcome reloads. -/
def repairCorpus (cfg : GapK1Config) (taskId : String) (corpus : List ConstraintDoc)
    (doc : ConstraintDoc) (checkIndex : Nat) (divergentReasons : List String)
    (answers : RepairAnswers) : RepairOutcome × List ConstraintDoc :=
  let result := advisorRun cfg (repairInput taskId doc checkIndex divergentReasons)
    (repairSource corpus doc) answers
  match result.1 with
  | .repaired _ _ => (result.1, result.2.loadAll.map (·.intoConstraintDoc))
  | .failed _ => (result.1, corpus)

end ControlPlane.Source.Engine
