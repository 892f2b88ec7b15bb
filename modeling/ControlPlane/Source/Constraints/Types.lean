import ControlPlane.Source.Text
import Mathlib.Algebra.Order.Field.Rat
import Mathlib.Data.List.Basic

/-!
# Constraint data model

Embeds `crates/h2ai-constraints/src/types.rs` and the provenance record of
`versioned.rs`. Scores, thresholds and weights are exact rationals: rounding of
`f64` and the values NaN and ±∞ are outside the model, except where a text is
parsed into a float. A JSON schema is carried as its serialized text, because it
is only handed to the validator.
-/
namespace ControlPlane.Source.Constraints

/-- The three vocabulary modes of `VocabularyMode`. -/
inductive VocabularyMode where
  | allOf | anyOf | noneOf
  deriving DecidableEq, Repr

inductive NumericOp where
  | lt | le | eq | ge | gt
  deriving DecidableEq, Repr

inductive CompositeOp where
  | and | or | not
  deriving DecidableEq, Repr

/-- The predicate tree of a constraint. `Composite` nests without bound. -/
inductive ConstraintPredicate where
  | vocabularyPresence (mode : VocabularyMode) (terms : List String)
  | negativeKeyword (terms : List String)
  | regexMatch (pattern : String) (mustMatch : Bool)
  | numericThreshold (fieldPattern : String) (op : NumericOp) (value : ℚ)
  | llmJudge (rubric : String)
  | composite (op : CompositeOp) (children : List ConstraintPredicate)
  | oracleExecution (testRunnerUri testSuite : String) (timeoutSecs : Nat)
  | jsonSchema (schema : String)
  | lengthRange (minChars maxChars : Option Nat)
  | semanticPresence (concept : String) (passes : Nat)
  | semanticOrdering (first andThen : String) (passes : Nat)
  | semanticExclusion (pattern : String) (passes : Nat)
  deriving Repr

/-- The leaves that only the asynchronous evaluator can score: a language model
or a test runner has to be asked. -/
def ConstraintPredicate.isAsyncLeaf : ConstraintPredicate → Bool
  | .llmJudge _ | .oracleExecution .. | .semanticPresence .. | .semanticOrdering ..
  | .semanticExclusion .. => true
  | _ => false

def ConstraintPredicate.isComposite : ConstraintPredicate → Bool
  | .composite .. => true
  | _ => false

inductive ConstraintSeverity where
  | hard (threshold : ℚ)
  | soft (weight : ℚ)
  | advisory
  deriving DecidableEq, Repr

def ConstraintSeverity.isHard : ConstraintSeverity → Bool
  | .hard _ => true
  | _ => false

/-- `RepairProvenance` of `versioned.rs`. -/
structure RepairProvenance where
  triggeredByTask : String
  triggeredAtMs : Nat
  instabilityScore : ℚ
  originalCheckIndex : Nat
  originalCheckText : String
  simplifiedCheckText : String
  validationConsistency : ℚ
  deriving DecidableEq, Repr

/-- `ConstraintDoc`, all fields. -/
structure ConstraintDoc where
  id : String
  sourceFile : String
  description : String
  severity : ConstraintSeverity
  predicate : ConstraintPredicate
  remediationHint : Option String
  domains : List String
  mandatoryForTags : List String
  relatedTo : List String
  binaryChecks : List String
  version : Nat
  repairProvenance : Option RepairProvenance
  passCriteria : Option String
  deriving Repr

/-- `ComplianceResult`: what one evaluation of one constraint reports. -/
structure ComplianceResult where
  constraintId : String
  score : ℚ
  severity : ConstraintSeverity
  remediationHint : Option String
  constraintDescription : String
  verifierReason : Option String
  checkVerdicts : List Bool
  criteriaPass : Option String
  checkReasons : List String
  deriving DecidableEq, Repr

namespace ComplianceResult

/-- `hard_passes`: only a `Hard` severity can block. -/
def hardPasses (r : ComplianceResult) : Bool :=
  match r.severity with
  | .hard threshold => decide (threshold ≤ r.score)
  | _ => true

/-- `hard_passes_scaled`: the hard threshold is relaxed by `scale`. -/
def hardPassesScaled (r : ComplianceResult) (scale : ℚ) : Bool :=
  match r.severity with
  | .hard threshold => decide (threshold * scale ≤ r.score)
  | _ => true

/-- Two results that agree on score and severity give the same scaled verdict. -/
theorem hardPassesScaled_congr {r s : ComplianceResult} (score : r.score = s.score)
    (severity : r.severity = s.severity) (scale : ℚ) :
    r.hardPassesScaled scale = s.hardPassesScaled scale := by
  unfold hardPassesScaled
  rw [severity, score]

end ComplianceResult

/-- The Soft weight that `aggregate_compliance_score` folds over. -/
def softWeight (r : ComplianceResult) : Option ℚ :=
  match r.severity with
  | .soft weight => some weight
  | _ => none

/-- `aggregate_compliance_score`: weighted mean over the Soft results, 1 when
there are none or their weights sum to zero. -/
def aggregateComplianceScore (results : List ComplianceResult) : ℚ :=
  let soft := results.filterMap fun r => (softWeight r).map fun w => (w, r.score)
  if soft.isEmpty then 1
  else
    let sums := soft.foldl (fun (acc : ℚ × ℚ) ws => (ws.1 * ws.2 + acc.1, acc.2 + ws.1)) (0, 0)
    if sums.2 = 0 then 1 else sums.1 / sums.2

end ControlPlane.Source.Constraints

/-!
# Semantic specs and their compilation

Embeds `SemanticSpec` of `crates/h2ai-constraints/src/spec.rs`: the rubric text
of the judge and the compilation into a `ConstraintDoc`.
-/
namespace ControlPlane.Source.Constraints

structure Exclusion where
  pattern : String
  passes : Nat
  deriving DecidableEq, Repr

structure Requirement where
  concept : String
  passes : Nat
  deriving DecidableEq, Repr

structure Ordering where
  first : String
  andThen : String
  passes : Nat
  deriving DecidableEq, Repr

structure FailureMode where
  id : String
  name : String
  description : String
  impact : Option String
  deriving DecidableEq, Repr

structure RubricExample where
  label : String
  code : Option String
  rationale : String
  deriving DecidableEq, Repr

structure QualityRubric where
  pass : String
  partialPass : Option String
  fail : String
  checks : List String
  failureModes : List FailureMode
  negativeExamples : List RubricExample
  positiveExamples : List RubricExample
  deriving DecidableEq, Repr

structure SemanticSpec where
  id : String
  title : String
  sourceFile : String
  severity : ConstraintSeverity
  domains : List String
  mandatoryForTags : List String
  relatedTo : List String
  remediationHint : Option String
  exclusions : List Exclusion
  requirements : List Requirement
  orderings : List Ordering
  rubric : QualityRubric
  version : Nat
  repairProvenance : Option RepairProvenance
  deriving DecidableEq, Repr

/-! ## Rubric text -/

def trimText (text : String) : String := String.ofList (Text.trim text.toList)

/-- One numbered check line, with its leading newline. -/
def checkLine (i : Nat) (check : String) : String :=
  "\n" ++ toString (i + 1) ++ ". " ++ check

/-- The check lines from number `i + 1` on. -/
def checkLines : Nat → List String → String
  | _, [] => ""
  | i, check :: rest => checkLine i check ++ checkLines (i + 1) rest

def scoreFormula (nChecks : Nat) : String :=
  "\n\nScore = number of checks marked PRESENT divided by " ++ toString nChecks ++
    " (total checks). Ignore the Pass/Partial/Fail guide above when binary checks are listed" ++
    " — compute score arithmetically."

def checkSection (checks : List String) : String :=
  if checks.isEmpty then ""
  else "\n\nBinary compliance checks — evaluate each in order:" ++ checkLines 0 checks ++
    scoreFormula checks.length

def failureModeLine (fm : FailureMode) : String :=
  "\n" ++ fm.id ++ " (" ++ fm.name ++ "): " ++ fm.description ++
    (match fm.impact with
      | some impact => " Impact: " ++ impact
      | none => "")

def failureModeSection (modes : List FailureMode) : String :=
  if modes.isEmpty then ""
  else "\n\n--- Failure Modes ---" ++ String.join (modes.map failureModeLine)

/-- One example; `why` introduces its rationale. -/
def exampleLines (why : String) (ex : RubricExample) : String :=
  (if ex.label.isEmpty then "" else "\nScenario: " ++ ex.label) ++
    (match ex.code with
      | some code => "\n```\n" ++ code ++ "\n```"
      | none => "") ++
    (if ex.rationale.isEmpty then "" else "\n" ++ why ++ ex.rationale)

def exampleSection (title why : String) (examples : List RubricExample) : String :=
  if examples.isEmpty then ""
  else "\n\n--- " ++ title ++ " ---" ++ String.join (examples.map (exampleLines why))

namespace SemanticSpec

/-- What stands in front of the check section. -/
def rubricHead (spec : SemanticSpec) : String :=
  spec.title ++ "\n\nPass (1.0): " ++ trimText spec.rubric.pass ++ "\n\nPartial (0.5): " ++
    spec.rubric.partialPass.getD ("Partially satisfies the pass criteria, or intent is correct but " ++
      "a key detail is missing or unclear.") ++
    "\n\nFail (0.0): " ++ trimText spec.rubric.fail ++
    (if spec.domains.isEmpty then "" else "\n\nDomain: " ++ ", ".intercalate spec.domains) ++
    (match spec.remediationHint with
      | some hint => "\n\nRemediation hint: " ++ hint
      | none => "")

/-- What stands behind the check section. -/
def rubricTail (spec : SemanticSpec) : String :=
  failureModeSection spec.rubric.failureModes ++
    exampleSection "Negative Examples (DO NOT generate)" "Why wrong: "
      spec.rubric.negativeExamples ++
    exampleSection "Positive Examples (generate patterns like these)" "Why correct: "
      spec.rubric.positiveExamples

/-- `build_rubric_text`. -/
def buildRubricText (spec : SemanticSpec) : String :=
  spec.rubricHead ++ checkSection spec.rubric.checks ++ spec.rubricTail

/-- `into_constraint_doc`: an `And` over all facets, the judge last. -/
def intoConstraintDoc (spec : SemanticSpec) : ConstraintDoc :=
  { id := spec.id
    sourceFile := spec.sourceFile
    description := spec.title
    severity := spec.severity
    predicate := .composite .and
      (spec.exclusions.map (fun e => .semanticExclusion e.pattern e.passes) ++
        spec.requirements.map (fun r => .semanticPresence r.concept r.passes) ++
        spec.orderings.map (fun o => .semanticOrdering o.first o.andThen o.passes) ++
        [.llmJudge spec.buildRubricText])
    remediationHint := spec.remediationHint
    domains := spec.domains
    mandatoryForTags := spec.mandatoryForTags
    relatedTo := spec.relatedTo
    binaryChecks := spec.rubric.checks
    version := spec.version
    repairProvenance := spec.repairProvenance
    passCriteria := if spec.rubric.pass.isEmpty then none else some spec.rubric.pass }

end SemanticSpec

end ControlPlane.Source.Constraints
