import ControlPlane.Source.Constraints.Types
import ControlPlane.Source.Constraints.Yaml
import ControlPlane.Source.Verification.Corpus
import Mathlib.Tactic.FieldSimp
import Mathlib.Tactic.Linarith

/-!
# Compiled rubrics against bare judges

A spec without facets compiles to an `And` over one judge. The composite arm
keeps the judge's score, but it drops the raw response, from which the check
verdicts are read, and keeps the reason only below a perfect score. This module
states for which judge answers the difference is invisible in `eval_all`.
-/
namespace ControlPlane.Guarantees.RubricCompilation

open Source Source.Constraints Source.Verification

/-- The document with the judge as its whole predicate. -/
def bareJudgeDoc (spec : SemanticSpec) : ConstraintDoc :=
  { spec.intoConstraintDoc with predicate := .llmJudge spec.buildRubricText }

/-- A spec that has a rubric only. -/
def NoFacets (spec : SemanticSpec) : Prop :=
  spec.exclusions = [] ∧ spec.requirements = [] ∧ spec.orderings = []

/-- An evaluator whose reply depends on the request alone. -/
def deterministic (answer : ComputeRequest → Reply)
    (runner : String → String → Nat → String → Option Bool) : Evaluator :=
  { execute := fun _ _ request => answer request
    testRunner := fun _ => runner }

/-- The score, reason and raw text a judge call reads from one reply. -/
def judged (json : ScoreJson) (reply : Reply) : ℚ × String × String :=
  if reply.late then (1 / 2, "", "") else llmScoreRaw json reply.output

/-- What is compared of a result. -/
def reported (result : ComplianceResult) : ℚ × List Bool × List String × Option String :=
  (result.score, result.checkVerdicts, result.checkReasons, result.verifierReason)

/-! ## One judge call -/

theorem clampUnit_unit (score : ℚ) : 0 ≤ clampUnit score ∧ clampUnit score ≤ 1 := by
  unfold clampUnit
  constructor
  · exact le_max_left 0 _
  · exact max_le zero_le_one (min_le_left 1 score)

theorem judged_unit (json : ScoreJson) (reply : Reply) :
    0 ≤ (judged json reply).1 ∧ (judged json reply).1 ≤ 1 := by
  unfold judged
  split
  · norm_num
  · unfold llmScoreRaw
    split
    · norm_num
    · split
      · exact clampUnit_unit _
      · norm_num

theorem lowestPass_replicate (pass : ℚ × String × String) (n : Nat) :
    lowestPass pass (List.replicate n pass) = pass := by
  induction n with
  | zero => rfl
  | succ n ih =>
      rw [List.replicate_succ, lowestPass, ite_self]
      exact ih

/-- Passes that all read the same reply average to it, and the first of them is
the lowest. -/
theorem evalLlmJudge_deterministic (json : ScoreJson) (settings : EvalSettings)
    (answer : ComputeRequest → Reply) (runner : String → String → Nat → String → Option Bool)
    (output rubric : String) (path : List Nat) :
    evalLlmJudge json settings (deterministic answer runner) output rubric path =
      (let pass := judged json (answer (scoreRequest settings rubric output))
       ⟨pass.1, nonEmptyText pass.2.1, nonEmptyText pass.2.2⟩) := by
  obtain ⟨n, hn⟩ : ∃ n, max settings.consensusPasses 1 = n + 1 :=
    ⟨max settings.consensusPasses 1 - 1, by omega⟩
  have hpairs : ((List.range (n + 1)).map fun k =>
      let reply := (deterministic answer runner).execute path k
        (scoreRequest settings rubric output)
      if reply.late then ((1 / 2 : ℚ), "", "") else llmScoreRaw json reply.output) =
      List.replicate (n + 1) (judged json (answer (scoreRequest settings rubric output))) := by
    rw [List.eq_replicate_iff]
    simp [deterministic, judged]
  have hne : ((n + 1 : Nat) : ℚ) ≠ 0 := by exact_mod_cast Nat.succ_ne_zero n
  simp only [evalLlmJudge, hn, hpairs]
  simp only [List.map_replicate, List.sum_replicate, List.length_replicate, nsmul_eq_mul]
  rw [mul_div_cancel_left₀ _ hne]
  simp only [List.replicate_succ, lowestPass_replicate]

/-- The `And` over one judge: same score, the reason only below one, no raw text. -/
theorem evalPredicateAsync_and_judge (x : Externals) (output rubric : String)
    (answers : Answers) {e : Evaluation} (he : answers [0] (.llmJudge rubric) = e)
    (h0 : 0 ≤ e.score) (h1 : e.score ≤ 1) :
    evalPredicateAsync x output (.composite .and [.llmJudge rubric]) answers =
      ⟨e.score, if e.score < 1 then e.reason else none, none⟩ := by
  have hleaf : ConstraintPredicate.isAsyncLeaf (.llmJudge rubric) = true := rfl
  simp only [evalPredicateAsync, andStatic, andDeferred, hleaf, ↓reduceIte, Answers.child, he]
  by_cases hone : e.score < 1
  · simp only [hone, ↓reduceIte]
    split
    next hle => rw [le_antisymm hle h0]
    next => rfl
  · have : e.score = 1 := le_antisymm h1 (not_lt.mp hone)
    simp [this]

section Compiled

variable (x : Externals) (json : ScoreJson) (settings : CorpusSettings) (output : String)
  (answer : ComputeRequest → Reply) (runner : String → String → Nat → String → Option Bool)

/-- The reply a miss on the document of `spec` reads. -/
def judgeReply (spec : SemanticSpec) : Reply :=
  answer (scoreRequest (docSettings settings spec.intoConstraintDoc) spec.buildRubricText output)

theorem intoConstraintDoc_predicate {spec : SemanticSpec} (plain : NoFacets spec) :
    spec.intoConstraintDoc.predicate = .composite .and [.llmJudge spec.buildRubricText] := by
  obtain ⟨exclusions, requirements, orderings⟩ := plain
  simp [SemanticSpec.intoConstraintDoc, exclusions, requirements, orderings]

theorem evalDoc_bare (spec : SemanticSpec) :
    evalDoc x json settings output (bareJudgeDoc spec) (deterministic answer runner) =
      (let pass := judged json (judgeReply settings output answer spec)
       ⟨pass.1, nonEmptyText pass.2.1, nonEmptyText pass.2.2⟩) := by
  unfold evalDoc
  rw [evalPredicateAsync_asyncLeaf _ _ _ _ rfl]
  exact evalLlmJudge_deterministic json _ answer runner output spec.buildRubricText []

theorem evalDoc_compiled {spec : SemanticSpec} (plain : NoFacets spec) :
    evalDoc x json settings output spec.intoConstraintDoc (deterministic answer runner) =
      (let pass := judged json (judgeReply settings output answer spec)
       ⟨pass.1, if pass.1 < 1 then nonEmptyText pass.2.1 else none, none⟩) := by
  have hunit := judged_unit json (judgeReply settings output answer spec)
  have hleaf := evalLlmJudge_deterministic json (docSettings settings spec.intoConstraintDoc)
    answer runner output spec.buildRubricText [0]
  unfold evalDoc
  rw [intoConstraintDoc_predicate plain]
  exact evalPredicateAsync_and_judge x output spec.buildRubricText
    (leafAnswers x json (docSettings settings spec.intoConstraintDoc)
      (deterministic answer runner) output) hleaf hunit.1 hunit.2

end Compiled

/-! ## The reported fields -/

/-- An answer that loses nothing in the composite arm: no reason at a perfect
score, and no check markers to read when the document has checks. -/
def LosesNothing (nChecks : Nat) (pass : ℚ × String × String) : Prop :=
  (pass.1 < 1 ∨ pass.2.1 = "") ∧
    (nChecks = 0 ∨ Text.containsText pass.2.2.toList "CHECK ".toList = false)

instance (nChecks : Nat) (pass : ℚ × String × String) : Decidable (LosesNothing nChecks pass) :=
  inferInstanceAs (Decidable (_ ∧ _))

theorem nonEmptyText_eq_none_iff (text : String) : nonEmptyText text = none ↔ text = "" := by
  unfold nonEmptyText
  split <;> simp_all

theorem hasCheckMarkers_nonEmptyText (raw : String) :
    hasCheckMarkers (nonEmptyText raw) = Text.containsText raw.toList "CHECK ".toList := by
  unfold nonEmptyText
  split
  next h =>
    subst h
    decide
  next => rfl

/-- Dropping the raw text is invisible in the verdicts when there are no checks or
no markers. -/
theorem checkVerdictsOf_drop_iff (raw : String) (nChecks : Nat) :
    checkVerdictsOf (nonEmptyText raw) nChecks = checkVerdictsOf none nChecks ↔
      nChecks = 0 ∨ Text.containsText raw.toList "CHECK ".toList = false := by
  have hnone : checkVerdictsOf none nChecks = [] := by simp [checkVerdictsOf]
  rw [hnone]
  rcases Nat.eq_zero_or_pos nChecks with rfl | hpos
  · unfold checkVerdictsOf nonEmptyText
    split <;> split <;> simp [parseCheckVerdicts]
  · rw [checkVerdictsOf_eq_nil_iff _ hpos, hasCheckMarkers_nonEmptyText]
    simp [Nat.ne_of_gt hpos]

theorem checkReasonsOf_drop {raw : String} {nChecks : Nat}
    (h : nChecks = 0 ∨ Text.containsText raw.toList "CHECK ".toList = false) :
    checkReasonsOf (nonEmptyText raw) nChecks = checkReasonsOf none nChecks := by
  have hnone : checkReasonsOf none nChecks = [] := by simp [checkReasonsOf]
  rw [hnone]
  rcases h with rfl | hmarkers
  · unfold checkReasonsOf nonEmptyText
    split <;> split <;> simp [parseCheckReasons]
  · simp only [checkReasonsOf, hasCheckMarkers_nonEmptyText, hmarkers, Bool.false_eq_true,
      ↓reduceIte]

theorem reported_compiled_iff (spec : SemanticSpec) (pass : ℚ × String × String) :
    reported (complianceResult spec.intoConstraintDoc
        ⟨pass.1, if pass.1 < 1 then nonEmptyText pass.2.1 else none, none⟩) =
      reported (complianceResult (bareJudgeDoc spec)
        ⟨pass.1, nonEmptyText pass.2.1, nonEmptyText pass.2.2⟩) ↔
      LosesNothing spec.rubric.checks.length pass := by
  have hreason : (if pass.1 < 1 then nonEmptyText pass.2.1 else none) = nonEmptyText pass.2.1 ↔
      pass.1 < 1 ∨ pass.2.1 = "" := by
    split
    next h => simp [h]
    next h => rw [eq_comm, nonEmptyText_eq_none_iff]; simp [h]
  have hverdicts := checkVerdictsOf_drop_iff pass.2.2 spec.rubric.checks.length
  constructor
  · intro same
    simp only [reported, complianceResult, Prod.mk.injEq] at same
    exact ⟨hreason.mp same.2.2.2, hverdicts.mp same.2.1.symm⟩
  · rintro ⟨reason, markers⟩
    rw [hreason.mpr reason]
    -- the score is read from the verdicts, the reason and the judge's score only
    have hv := hverdicts.mpr markers
    have hr := checkReasonsOf_drop markers
    have hdoc : (bareJudgeDoc spec).binaryChecks = spec.rubric.checks := rfl
    have hdoc' : spec.intoConstraintDoc.binaryChecks = spec.rubric.checks := rfl
    simp only [reported, complianceResult, effectiveScore, hdoc, hdoc', hv, hr]

/-! ## The document in its corpus -/

/-- The document is answered from the cache: a similar text is stored, or an earlier
document of the corpus has the id and has just stored this text. -/
def ServedFromCache (x : Externals) (cache : EvalCache) (before : List ConstraintDoc)
    (id output : String) : Prop :=
  cacheLookup x cache id output ≠ none ∨ (id ∈ before.map (·.id) ∧ tokenize x output ≠ ∅)

/-- Compiled and bare form at one place of a corpus: they leave the same cache, and
they report the same fields on a hit, or on a miss that loses nothing. -/
theorem evalCached_compiled_iff (x : Externals) (json : ScoreJson) (settings : CorpusSettings)
    (output : String) (answer : ComputeRequest → Reply)
    (runner : String → String → Nat → String → Option Bool) {spec : SemanticSpec}
    (plain : NoFacets spec) (cache : EvalCache) :
    (evalCached x json settings output spec.intoConstraintDoc (deterministic answer runner)
        cache).2 =
      (evalCached x json settings output (bareJudgeDoc spec) (deterministic answer runner)
        cache).2 ∧
    (reported (evalCached x json settings output spec.intoConstraintDoc
          (deterministic answer runner) cache).1.1 =
        reported (evalCached x json settings output (bareJudgeDoc spec)
          (deterministic answer runner) cache).1.1 ↔
      cacheLookup x cache spec.id output ≠ none ∨
        LosesNothing spec.rubric.checks.length
          (judged json (judgeReply settings output answer spec))) := by
  have hid : (bareJudgeDoc spec).id = spec.id := rfl
  have hid' : spec.intoConstraintDoc.id = spec.id := rfl
  unfold evalCached
  rw [hid, hid']
  cases hl : cacheLookup x cache spec.id output with
  | some score =>
      refine ⟨rfl, ?_⟩
      simp only [ne_eq, reduceCtorEq, not_false_eq_true, true_or, iff_true]
      rfl
  | none =>
      simp only [evalDoc_bare, evalDoc_compiled x json settings output answer runner plain]
      refine ⟨trivial, ?_⟩
      rw [reported_compiled_iff]
      simp

theorem evalDocs_lookup_ne_none_iff (x : Externals) (json : ScoreJson)
    (settings : CorpusSettings) (output : String) (worlds : Nat → Evaluator)
    (before : List ConstraintDoc) (i : Nat) (cache : EvalCache) (id : String) :
    cacheLookup x (evalDocs x json settings output worlds before i cache).2 id output ≠ none ↔
      ServedFromCache x cache before id output := by
  unfold ServedFromCache
  by_cases tokens : tokenize x output = ∅
  · simp [cacheLookup_no_tokens tokens, tokens]
  · simp only [tokens, not_false_eq_true, and_true, ne_eq]
    induction before generalizing i cache with
    | nil => simp [evalDocs]
    | cons doc before ih =>
        simp only [evalDocs]
        rw [ih]
        by_cases same : id = doc.id
        · subst same
          rw [evalCached_self json settings tokens]
          cases cacheLookup x cache doc.id output <;> simp
        · rw [evalCached_other json settings doc (worlds i) cache same]
          simp [same]

section Example

def citationSpec : SemanticSpec :=
  { id := "C-CITE"
    title := "cite sources"
    sourceFile := "C-CITE.yaml"
    severity := .hard (3 / 5)
    domains := []
    mandatoryForTags := []
    relatedTo := []
    remediationHint := none
    exclusions := []
    requirements := []
    orderings := []
    rubric :=
      { pass := "Every statement has a source."
        partialPass := none
        fail := "No sources."
        checks := ["names a source", "gives a page"]
        failureModes := []
        negativeExamples := []
        positiveExamples := [] }
    version := 1
    repairProvenance := none }

def citationScore : String := "\x7b\"score\": 0.9, \"reason\": \"no page\"\x7d"

def citationAnswer : String :=
  "CHECK 1: names RFC 9110 → PRESENT\nCHECK 2: no page given → MISSING\n" ++ citationScore

def citationJson : ScoreJson :=
  { fromStr := fun text => if text = citationScore.toList then some (9 / 10, "no page") else none
    valueLength := fun text => some text.length }

def citationSettings : CorpusSettings := ⟨"", "evaluate", 1 / 10, 1024, 1, 45 / 100⟩

end Example

end ControlPlane.Guarantees.RubricCompilation

/-!
# The two constraint compilers

A constraint file becomes a document directly, or through its semantic spec. The two
ways agree field by field but for three things: the default threshold of a hard
constraint, the numeric checks, and which of the two reasons an example shows.
-/
namespace ControlPlane.Guarantees.CompilerAgreement

open Source.Constraints

/-- The file leaves nothing to the places where the compilers differ: a hard constraint
has its threshold, there are no numeric checks, and the examples spell the same text
whether their reasons are read with the fallback or from their own field. -/
structure ReadsAlike (y : ConstraintYaml) : Prop where
  threshold : y.severity = .hard → y.threshold.isSome = true
  numeric : y.numericChecks = []
  examples : y.exampleText ExampleYaml.rationale ExampleYaml.rationale =
    y.exampleText (fun ex => ex.whyWrong.getD "") (fun ex => ex.whyCorrect.getD "")

/-- Each example gives its reason in the field of its own kind. -/
structure OwnReasons (y : ConstraintYaml) : Prop where
  negative : ∀ ex ∈ y.negativeExamples, ex.whyWrong = none → ex.whyCorrect.getD "" = ""
  positive : ∀ ex ∈ y.positiveExamples, ex.whyWrong = none ∨ ex.whyWrong = some (ex.whyCorrect.getD "")

theorem exampleText_of_ownReasons {y : ConstraintYaml} (own : OwnReasons y) :
    y.exampleText ExampleYaml.rationale ExampleYaml.rationale =
      y.exampleText (fun ex => ex.whyWrong.getD "") (fun ex => ex.whyCorrect.getD "") := by
  have hnegative : ∀ ex ∈ y.negativeExamples, ex.rationale = ex.whyWrong.getD "" := by
    intro ex hex
    unfold ExampleYaml.rationale
    cases hwhy : ex.whyWrong with
    | none => exact own.negative ex hex hwhy
    | some why => rfl
  have hpositive : ∀ ex ∈ y.positiveExamples, ex.rationale = ex.whyCorrect.getD "" := by
    intro ex hex
    unfold ExampleYaml.rationale
    rcases own.positive ex hex with hwhy | hwhy
    · rw [hwhy]
      rfl
    · rw [hwhy]
      rfl
  unfold ConstraintYaml.exampleText
  rw [List.map_congr_left fun ex hex => by rw [hnegative ex hex],
    List.map_congr_left (l := y.positiveExamples) fun ex hex => by rw [hpositive ex hex]]

/-- No number of checks has the default of the spec. -/
theorem defaultThreshold_ne (y : ConstraintYaml) : y.defaultThreshold ≠ 45 / 100 := by
  unfold ConstraintYaml.defaultThreshold
  dsimp only
  split_ifs with h
  · obtain ⟨k, hk⟩ := Nat.exists_eq_add_of_le h
    rw [show y.criteria.checks.length - 1 = k + 1 by omega, hk]
    intro heq
    have hpos : (0 : ℚ) < ((2 + k : Nat) : ℚ) := by positivity
    rw [div_eq_iff hpos.ne'] at heq
    push_cast at heq
    have hk0 : (0 : ℚ) ≤ k := Nat.cast_nonneg k
    linarith
  · norm_num

theorem severity_iff (y : ConstraintYaml) :
    y.specSeverity = y.docSeverity ↔ (y.severity = .hard → y.threshold.isSome = true) := by
  unfold ConstraintYaml.specSeverity ConstraintYaml.docSeverity
  cases y.severity with
  | hard =>
      cases y.threshold with
      | none => simpa using (defaultThreshold_ne y).symm
      | some t => simp
  | soft => simp
  | advisory => simp

/-- The predicate trees agree exactly if there is no numeric check and the examples read
alike. -/
theorem predicate_iff {y : ConstraintYaml} {s : SemanticSpec} (h : y.intoSemanticSpec = .ok s) :
    s.intoConstraintDoc.predicate = y.intoConstraintDoc.predicate ↔
      y.numericChecks = [] ∧ y.exampleText ExampleYaml.rationale ExampleYaml.rationale =
        y.exampleText (fun ex => ex.whyWrong.getD "") (fun ex => ex.whyCorrect.getD "") := by
  have hspec : s.intoConstraintDoc.predicate =
      .composite .and (y.facets.children ++ [.llmJudge s.buildRubricText]) := by
    unfold ConstraintYaml.intoSemanticSpec at h
    split_ifs at h
    cases h
    rfl
  have hkeys : y.keyCollision = false := by
    unfold ConstraintYaml.intoSemanticSpec at h
    split_ifs at h with hkeys
    simpa using hkeys
  have hdoc : y.intoConstraintDoc.predicate = .composite .and
      (y.numericChecks.map NumericCheck.predicate ++ y.facets.children ++
        [.llmJudge y.buildRubric]) := by
    unfold ConstraintYaml.intoConstraintDoc
    rw [hkeys]
    rfl
  rw [hspec, hdoc, ConstraintYaml.buildRubricText_eq h]
  unfold ConstraintYaml.buildRubric
  rw [ConstraintYaml.rubricExamples_eq]
  constructor
  · intro heq
    injection heq with _ hchildren
    obtain ⟨hfacets, hjudge⟩ := List.append_inj' hchildren rfl
    have hnumeric : y.numericChecks = [] := by
      have hlength := congrArg List.length hfacets
      rw [List.length_append, List.length_map] at hlength
      exact List.length_eq_zero_iff.mp (by omega)
    injection hjudge with hjudge
    injection hjudge with hrubric
    exact ⟨hnumeric, ((String.append_right_inj _).mp ((String.append_right_inj _).mp hrubric)).symm⟩
  · rintro ⟨hnumeric, hexamples⟩
    rw [hnumeric, hexamples]
    rfl

theorem doc_eq_iff {y : ConstraintYaml} {s : SemanticSpec} (h : y.intoSemanticSpec = .ok s) :
    s.intoConstraintDoc = y.intoConstraintDoc ↔
      s.intoConstraintDoc.predicate = y.intoConstraintDoc.predicate ∧
        y.specSeverity = y.docSeverity := by
  have hseverity : s.severity = y.specSeverity ∧
      { s.intoConstraintDoc with
          predicate := y.intoConstraintDoc.predicate, severity := y.docSeverity } =
        y.intoConstraintDoc := by
    unfold ConstraintYaml.intoSemanticSpec at h
    split_ifs at h
    cases h
    exact ⟨rfl, rfl⟩
  constructor
  · intro heq
    refine ⟨congrArg ConstraintDoc.predicate heq, ?_⟩
    rw [← hseverity.1]
    exact congrArg ConstraintDoc.severity heq
  · rintro ⟨hpredicate, hsame⟩
    rw [← hseverity.2, ← hpredicate, ← hsame, ← hseverity.1]
    rfl

/-- The compilers agree on a file exactly if it reads alike for both. -/
theorem compilers_agree_iff {y : ConstraintYaml} {s : SemanticSpec}
    (compiled : y.intoSemanticSpec = .ok s) :
    s.intoConstraintDoc = y.intoConstraintDoc ↔ ReadsAlike y := by
  rw [doc_eq_iff compiled, predicate_iff compiled, severity_iff]
  constructor
  · rintro ⟨⟨hnumeric, hexamples⟩, hthreshold⟩
    exact ⟨hthreshold, hnumeric, hexamples⟩
  · rintro ⟨hthreshold, hnumeric, hexamples⟩
    exact ⟨⟨hnumeric, hexamples⟩, hthreshold⟩

/-- A file with a requirement and an example of each kind. -/
def budgetYaml : ConstraintYaml :=
  { id := "C-004"
    title := "Budget pacing"
    severity := .hard
    threshold := some (1 / 2)
    domains := ["billing"]
    mandatoryForTags := []
    relatedTo := ["C-005"]
    remediationHint := none
    numericChecks := []
    criteria := ⟨"Idempotency key.", none, "No idempotency.", ["key present", "deduct is atomic"]⟩
    predicates := [⟨"semantic_presence", some "idempotency key", none, none, none, 3⟩]
    semantic := none
    failureModes := []
    negativeExamples := [⟨some "check, then act", none, some "two requests pass the check", none⟩]
    positiveExamples := [⟨some "one script", none, none, some "check and deduct are one step"⟩] }

def budgetSpec : SemanticSpec :=
  { id := "C-004"
    title := "Budget pacing"
    sourceFile := "C-004"
    severity := .hard (1 / 2)
    domains := ["billing"]
    mandatoryForTags := []
    relatedTo := ["C-005"]
    remediationHint := none
    exclusions := []
    requirements := [⟨"idempotency key", 3⟩]
    orderings := []
    rubric :=
      { pass := "Idempotency key."
        partialPass := none
        fail := "No idempotency."
        checks := ["key present", "deduct is atomic"]
        failureModes := []
        negativeExamples := [⟨"check, then act", none, "two requests pass the check"⟩]
        positiveExamples := [⟨"one script", none, "check and deduct are one step"⟩] }
    version := 1
    repairProvenance := none }

theorem budget_compilers_agree : budgetSpec.intoConstraintDoc = budgetYaml.intoConstraintDoc := by
  refine (compilers_agree_iff (by decide +kernel)).mpr ⟨fun _ => rfl, rfl, ?_⟩
  exact exampleText_of_ownReasons ⟨by decide +kernel, by decide +kernel⟩

def timeoutYaml : ConstraintYaml :=
  { budgetYaml with
    threshold := none
    numericChecks := [⟨"timeout: ([0-9]+)", "le", 30⟩] }

/-- Without a threshold the file's own document asks for one of its two checks, the spec's
for a score of 0.45; and a numeric check is in the first one only. -/
theorem compilers_disagree :
    ∃ s, timeoutYaml.intoSemanticSpec = .ok s ∧
      s.intoConstraintDoc ≠ timeoutYaml.intoConstraintDoc := by
  refine ⟨{ budgetSpec with severity := .hard (45 / 100) }, by decide +kernel, ?_⟩
  intro heq
  have hseverity := congrArg ConstraintDoc.severity heq
  revert hseverity
  decide +kernel

end ControlPlane.Guarantees.CompilerAgreement
