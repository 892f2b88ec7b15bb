import ControlPlane.Source.Constraints.Types

/-!
# Constraint files

Embeds `ConstraintYaml` of `crates/h2ai-constraints/src/yaml.rs` behind the parser:
its own rubric and its own compilation into a `ConstraintDoc`, and the translation
into a `SemanticSpec`.
-/
namespace ControlPlane.Source.Constraints

structure NumericCheck where
  pattern : String
  op : String
  value : ℚ
  deriving DecidableEq, Repr

/-- The deprecated `predicates:` entries. -/
structure StructuredPredicate where
  predicateType : String
  concept : Option String
  first : Option String
  andThen : Option String
  pattern : Option String
  passes : Nat
  deriving DecidableEq, Repr

/-- `SemanticSectionYaml`; its entries have the fields of the spec's. -/
structure SemanticSectionYaml where
  exclusions : List Exclusion
  requirements : List Requirement
  orderings : List Ordering
  deriving DecidableEq, Repr

structure FailureModeYaml where
  id : String
  name : Option String
  description : Option String
  impact : Option String
  deriving DecidableEq, Repr

structure ExampleYaml where
  scenario : Option String
  code : Option String
  whyWrong : Option String
  whyCorrect : Option String
  deriving DecidableEq, Repr

def ExampleYaml.label (ex : ExampleYaml) : String := ex.scenario.getD ""

/-- The first of the two reasons that is given, whatever kind of example it is. -/
def ExampleYaml.rationale (ex : ExampleYaml) : String := (ex.whyWrong <|> ex.whyCorrect).getD ""

inductive SeverityKind where
  | hard | soft | advisory
  deriving DecidableEq, Repr

structure Criteria where
  pass : String
  partialPass : Option String
  fail : String
  checks : List String
  deriving DecidableEq, Repr

structure ConstraintYaml where
  id : String
  title : String
  severity : SeverityKind
  threshold : Option ℚ
  domains : List String
  mandatoryForTags : List String
  relatedTo : List String
  remediationHint : Option String
  numericChecks : List NumericCheck
  criteria : Criteria
  predicates : List StructuredPredicate
  semantic : Option SemanticSectionYaml
  failureModes : List FailureModeYaml
  negativeExamples : List ExampleYaml
  positiveExamples : List ExampleYaml
  deriving DecidableEq, Repr

/-! ## Legacy predicates -/

def nonEmpty (text : Option String) : Option String := text.filter fun t => !t.isEmpty

/-- One entry of the `predicates:` array; entries of another type are skipped. -/
def addLegacyPredicate (facets : SemanticSectionYaml) (p : StructuredPredicate) :
    SemanticSectionYaml :=
  if p.predicateType = "semantic_ordering" then
    match nonEmpty p.first, nonEmpty p.andThen with
    | some first, some andThen =>
        { facets with orderings := facets.orderings ++ [⟨first, andThen, p.passes⟩] }
    | _, _ => facets
  else if p.predicateType = "semantic_presence" then
    match nonEmpty p.concept with
    | some concept =>
        { facets with requirements := facets.requirements ++ [⟨concept, p.passes⟩] }
    | none => facets
  else if p.predicateType = "semantic_exclusion" then
    match nonEmpty p.pattern with
    | some pattern =>
        { facets with exclusions := facets.exclusions ++ [⟨pattern, p.passes⟩] }
    | none => facets
  else facets

/-- `map_legacy_predicates`. -/
def mapLegacyPredicates (predicates : List StructuredPredicate) : SemanticSectionYaml :=
  predicates.foldl addLegacyPredicate ⟨[], [], []⟩

/-! ## Rubric -/

def yamlFailureModeLine (fm : FailureModeYaml) : String :=
  "\n" ++ fm.id ++ " (" ++ fm.name.getD "" ++ "): " ++ fm.description.getD "" ++
    (match fm.impact with
      | some impact => " Impact: " ++ impact
      | none => "")

def yamlFailureModeSection (modes : List FailureModeYaml) : String :=
  if modes.isEmpty then ""
  else "\n\n--- Failure Modes ---" ++ String.join (modes.map yamlFailureModeLine)

def yamlExampleLines (why : String) (ex : ExampleYaml) : String :=
  (if ex.label.isEmpty then "" else "\nScenario: " ++ ex.label) ++
    (match ex.code with
      | some code => "\n```\n" ++ code ++ "\n```"
      | none => "") ++
    (if ex.rationale.isEmpty then "" else "\n" ++ why ++ ex.rationale)

def yamlExampleSection (title why : String) (examples : List ExampleYaml) : String :=
  if examples.isEmpty then ""
  else "\n\n--- " ++ title ++ " ---" ++ String.join (examples.map (yamlExampleLines why))

/-- The comparison of a numeric check; an unknown one is read as `le`. -/
def numericOp (op : String) : NumericOp :=
  if op = "lt" then .lt
  else if op = "eq" then .eq
  else if op = "ge" then .ge
  else if op = "gt" then .gt
  else .le

def NumericCheck.predicate (check : NumericCheck) : ConstraintPredicate :=
  .numericThreshold check.pattern (numericOp check.op) check.value

def SemanticSectionYaml.children (facets : SemanticSectionYaml) : List ConstraintPredicate :=
  facets.exclusions.map (fun e => .semanticExclusion e.pattern e.passes) ++
    facets.requirements.map (fun r => .semanticPresence r.concept r.passes) ++
    facets.orderings.map (fun o => .semanticOrdering o.first o.andThen o.passes)

namespace ConstraintYaml

/-- What stands in front of the check section. -/
def rubricHead (y : ConstraintYaml) : String :=
  y.title ++ "\n\nPass (1.0): " ++ trimText y.criteria.pass ++ "\n\nPartial (0.5): " ++
    y.criteria.partialPass.getD ("Partially satisfies the pass criteria, or intent is correct but " ++
      "a key detail is missing or unclear.") ++
    "\n\nFail (0.0): " ++ trimText y.criteria.fail ++
    (if y.domains.isEmpty then "" else "\n\nDomain: " ++ ", ".intercalate y.domains) ++
    (match y.remediationHint with
      | some hint => "\n\nRemediation hint: " ++ hint
      | none => "")

def rubricExamples (y : ConstraintYaml) : String :=
  yamlExampleSection "Negative Examples (DO NOT generate)" "Why wrong: " y.negativeExamples ++
    yamlExampleSection "Positive Examples (generate patterns like these)" "Why correct: "
      y.positiveExamples

/-- `build_rubric`. -/
def buildRubric (y : ConstraintYaml) : String :=
  y.rubricHead ++ checkSection y.criteria.checks ++
    (yamlFailureModeSection y.failureModes ++ y.rubricExamples)

/-- `threshold.unwrap_or_else(..)` of the document: one missed check is allowed. -/
def defaultThreshold (y : ConstraintYaml) : ℚ :=
  let n := y.criteria.checks.length
  if 2 ≤ n then ((n - 1 : Nat) : ℚ) / n else 1 / 2

def docSeverity (y : ConstraintYaml) : ConstraintSeverity :=
  match y.severity with
  | .hard => .hard (y.threshold.getD y.defaultThreshold)
  | .soft => .soft (y.threshold.getD 1)
  | .advisory => .advisory

/-- Both `semantic:` and `predicates:` are given. -/
def keyCollision (y : ConstraintYaml) : Bool := y.semantic.isSome && !y.predicates.isEmpty

def facets (y : ConstraintYaml) : SemanticSectionYaml :=
  y.semantic.getD (mapLegacyPredicates y.predicates)

/-- `into_constraint_doc`. -/
def intoConstraintDoc (y : ConstraintYaml) : ConstraintDoc :=
  { id := y.id
    sourceFile := y.id
    description := y.title
    severity := y.docSeverity
    predicate := .composite .and
      (y.numericChecks.map NumericCheck.predicate ++
        (if y.keyCollision then [] else y.facets.children) ++ [.llmJudge y.buildRubric])
    remediationHint := y.remediationHint
    domains := y.domains
    mandatoryForTags := y.mandatoryForTags
    relatedTo := y.relatedTo
    binaryChecks := y.criteria.checks
    version := 1
    repairProvenance := none
    passCriteria := if y.criteria.pass.isEmpty then none else some y.criteria.pass }

def specSeverity (y : ConstraintYaml) : ConstraintSeverity :=
  match y.severity with
  | .hard => .hard (y.threshold.getD (45 / 100))
  | .soft => .soft (y.threshold.getD 1)
  | .advisory => .advisory

def specFailureMode (fm : FailureModeYaml) : FailureMode :=
  ⟨fm.id, fm.name.getD "", fm.description.getD "", fm.impact⟩

/-- A negative example keeps `why_wrong` only. -/
def negativeExample (ex : ExampleYaml) : RubricExample := ⟨ex.label, ex.code, ex.whyWrong.getD ""⟩

/-- A positive example keeps `why_correct` only. -/
def positiveExample (ex : ExampleYaml) : RubricExample := ⟨ex.label, ex.code, ex.whyCorrect.getD ""⟩

def collisionMessage (id : String) : String :=
  "Constraint '" ++ id ++ "' contains both 'semantic:' and 'predicates:'. " ++
    "Remove the deprecated 'predicates:' key before loading."

/-- `into_semantic_spec`; `numeric_checks` has no place in the spec. -/
def intoSemanticSpec (y : ConstraintYaml) : Except String SemanticSpec :=
  if y.keyCollision then .error (collisionMessage y.id)
  else .ok
    { id := y.id
      title := y.title
      sourceFile := y.id
      severity := y.specSeverity
      domains := y.domains
      mandatoryForTags := y.mandatoryForTags
      relatedTo := y.relatedTo
      remediationHint := y.remediationHint
      exclusions := y.facets.exclusions
      requirements := y.facets.requirements
      orderings := y.facets.orderings
      rubric :=
        { pass := y.criteria.pass
          partialPass := y.criteria.partialPass
          fail := y.criteria.fail
          checks := y.criteria.checks
          failureModes := y.failureModes.map specFailureMode
          negativeExamples := y.negativeExamples.map negativeExample
          positiveExamples := y.positiveExamples.map positiveExample }
      version := 1
      repairProvenance := none }

end ConstraintYaml

/-! ## The two rubrics -/

theorem failureModeSection_spec (modes : List FailureModeYaml) :
    failureModeSection (modes.map ConstraintYaml.specFailureMode) =
      yamlFailureModeSection modes := by
  unfold failureModeSection yamlFailureModeSection
  rw [List.map_map, List.isEmpty_map]
  rfl

/-- A file's examples are laid out as those of a spec with the same rationales. -/
theorem yamlExampleSection_eq (title why : String) (examples : List ExampleYaml) :
    yamlExampleSection title why examples =
      exampleSection title why (examples.map fun ex => ⟨ex.label, ex.code, ex.rationale⟩) := by
  unfold exampleSection yamlExampleSection
  rw [List.map_map, List.isEmpty_map]
  rfl

namespace ConstraintYaml

/-- The examples of the file with a rationale for each kind of them. -/
def exampleText (whyNegative whyPositive : ExampleYaml → String) (y : ConstraintYaml) : String :=
  exampleSection "Negative Examples (DO NOT generate)" "Why wrong: "
      (y.negativeExamples.map fun ex => ⟨ex.label, ex.code, whyNegative ex⟩) ++
    exampleSection "Positive Examples (generate patterns like these)" "Why correct: "
      (y.positiveExamples.map fun ex => ⟨ex.label, ex.code, whyPositive ex⟩)

theorem rubricExamples_eq (y : ConstraintYaml) :
    y.rubricExamples = y.exampleText ExampleYaml.rationale ExampleYaml.rationale := by
  unfold rubricExamples exampleText
  rw [yamlExampleSection_eq, yamlExampleSection_eq]

/-- The rubric of the spec differs from the rubric of the file in the examples only. -/
theorem buildRubricText_eq {y : ConstraintYaml} {s : SemanticSpec}
    (h : y.intoSemanticSpec = .ok s) :
    s.buildRubricText = y.rubricHead ++ checkSection y.criteria.checks ++
      (yamlFailureModeSection y.failureModes ++
        y.exampleText (fun ex => ex.whyWrong.getD "") (fun ex => ex.whyCorrect.getD "")) := by
  unfold intoSemanticSpec at h
  split_ifs at h
  cases h
  unfold SemanticSpec.buildRubricText SemanticSpec.rubricTail
  dsimp only
  rw [failureModeSection_spec]
  unfold exampleText
  simp only [String.append_assoc]
  rfl

end ConstraintYaml

end ControlPlane.Source.Constraints
