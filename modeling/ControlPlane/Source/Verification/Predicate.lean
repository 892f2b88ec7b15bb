import ControlPlane.Source.Constraints.Eval

/-!
# Asynchronous predicate evaluation

Embeds `VerificationPhase::eval_predicate_async` and the calls below it
(`llm_score_raw`, `majority_binary_check`, `eval_oracle`,
`extract_json_object`) of `crates/h2ai-orchestrator/src/verification.rs`.

The language model, the HTTP test runner and `serde_json` are outside the
repository. An adapter may answer two identical requests differently, so every
call is named by its place: the path of the leaf in the predicate tree and the
number of the pass. Fixing the answers of all places fixes one evaluation.
-/
namespace ControlPlane.Source.Verification

open Constraints

/-- `(score, reason, raw response)`. -/
structure Evaluation where
  score : ℚ
  reason : Option String
  raw : Option String
  deriving DecidableEq, Repr

/-- Answers for the async leaves of a tree, by the leaf's path of child indices. -/
abbrev Answers := List Nat → ConstraintPredicate → Evaluation

/-- The answers for the subtree at child `i`. -/
def Answers.child (answers : Answers) (i : Nat) : Answers := fun path => answers (i :: path)

/-- First loop of the `And` arm: children that are not async leaves are scored by
`eval_sync`, `none` being the early return at zero. -/
def andStatic (x : Externals) (output : String) : List ConstraintPredicate → ℚ → Option ℚ
  | [], minScore => some minScore
  | child :: rest, minScore =>
      if child.isAsyncLeaf then andStatic x output rest minScore
      else
        let s := evalSync x output child
        let next := if s < minScore then s else minScore
        if next ≤ 0 then none else andStatic x output rest next

mutual
/-- `eval_predicate_async`, with the leaf calls answered by `answers`. -/
def evalPredicateAsync (x : Externals) (output : String) :
    ConstraintPredicate → Answers → Evaluation
  | .composite .and children, answers =>
      match andStatic x output children 1 with
      | none => ⟨0, none, none⟩
      | some minScore => andDeferred x output children answers 0 minScore none
  | .composite .or children, answers => orLoop x output children answers 0 0
  | .composite .not [], _ => ⟨1 - 0, none, none⟩
  | .composite .not (child :: _), answers =>
      ⟨1 - (evalPredicateAsync x output child (answers.child 0)).score, none, none⟩
  | p, answers => if p.isAsyncLeaf then answers [] p else ⟨evalSync x output p, none, none⟩
/-- Second loop of the `And` arm, over the deferred children only. -/
def andDeferred (x : Externals) (output : String) :
    List ConstraintPredicate → Answers → Nat → ℚ → Option String → Evaluation
  | [], _, _, minScore, minReason => ⟨minScore, minReason, none⟩
  | child :: rest, answers, i, minScore, minReason =>
      if child.isAsyncLeaf then
        let e := evalPredicateAsync x output child (answers.child i)
        let nextScore := if e.score < minScore then e.score else minScore
        let nextReason := if e.score < minScore then e.reason else minReason
        if nextScore ≤ 0 then ⟨0, nextReason, none⟩
        else andDeferred x output rest answers (i + 1) nextScore nextReason
      else andDeferred x output rest answers (i + 1) minScore minReason
/-- The `Or` arm: children in order, early return at one. -/
def orLoop (x : Externals) (output : String) :
    List ConstraintPredicate → Answers → Nat → ℚ → Evaluation
  | [], _, _, maxScore => ⟨maxScore, none, none⟩
  | child :: rest, answers, i, maxScore =>
      let next := max maxScore (evalPredicateAsync x output child (answers.child i)).score
      if 1 ≤ next then ⟨1, none, none⟩ else orLoop x output rest answers (i + 1) next
end

theorem evalPredicateAsync_asyncLeaf (x : Externals) (output : String)
    (p : ConstraintPredicate) (answers : Answers) (leaf : p.isAsyncLeaf = true) :
    evalPredicateAsync x output p answers = answers [] p := by
  cases p <;> simp_all [ConstraintPredicate.isAsyncLeaf, evalPredicateAsync]

/-! ## The leaf calls -/

/-- A request of the compute adapter. -/
structure ComputeRequest where
  systemContext : String
  task : String
  tau : ℚ
  maxTokens : Nat
  deriving DecidableEq, Repr

/-- What `execute` gives back: the output, or `none` for an adapter error. `late`
says that it does not arrive within the judge timeout. -/
structure Reply where
  output : Option String
  late : Bool
  deriving DecidableEq, Repr

/-- The outside world during one predicate evaluation, by leaf path and pass. -/
structure Evaluator where
  execute : List Nat → Nat → ComputeRequest → Reply
  /-- The test runner's answer: `some passed`, or `none` for a failed request, a
  timeout or an unreadable body. -/
  testRunner : List Nat → String → String → Nat → String → Option Bool

/-- What `serde_json` decides about a text: whether all of it is a score object,
and how long the JSON value at its start is. -/
structure ScoreJson where
  fromStr : List Char → Option (ℚ × String)
  valueLength : List Char → Option Nat

/-- The scan of `extract_json_object`: try the value at every `{`, keep the last
one that reads as a score. `skip` drops the characters of a value already read. -/
def scanJsonObjects (json : ScoreJson) :
    Nat → Option (ℚ × String) → List Char → Option (ℚ × String)
  | _, lastValid, [] => lastValid
  | skip + 1, lastValid, _ :: rest => scanJsonObjects json skip lastValid rest
  | 0, lastValid, c :: rest =>
      if c = '\x7b' then
        match json.valueLength (c :: rest) with
        | some len =>
            let value := json.fromStr ((c :: rest).take len)
            scanJsonObjects json (len - 1) (value.or lastValid) rest
        | none => scanJsonObjects json 0 lastValid rest
      else scanJsonObjects json 0 lastValid rest

def extractJsonObject (json : ScoreJson) (text : List Char) : Option (ℚ × String) :=
  match json.fromStr (Text.trim text) with
  | some value => some value
  | none => scanJsonObjects json 0 none text

/-- `PromptTemplate::render`: one pass of `str::replace` for each variable. -/
def renderTemplate (template : String) (vars : List (String × String)) : String :=
  vars.foldl (fun s kv =>
    String.ofList (Text.replaceText s.toList ("\x7b" ++ kv.1 ++ "\x7d").toList kv.2.toList)) template

def verificationTask : String :=
  "Criterion:\n\x7brubric\x7d\n\nProposal:\n\x7boutput\x7d"

def clampUnit (score : ℚ) : ℚ := max 0 (min 1 score)

/-- `llm_score_raw`, given what `execute` returned: `(score, reason, raw)`. -/
def llmScoreRaw (json : ScoreJson) (response : Option String) : ℚ × String × String :=
  match response with
  | none => (7 / 10, "", "")
  | some raw =>
      match extractJsonObject json raw.toList with
      | some (score, reason) => (clampUnit score, reason, raw)
      | none => (7 / 10, "", raw)

/-- Settings that one predicate evaluation passes down to its calls. -/
structure EvalSettings where
  systemPrompt : String
  tau : ℚ
  maxTokens : Nat
  consensusPasses : Nat

/-- The request of `llm_score_raw`: criterion and proposal in one prompt. -/
def scoreRequest (settings : EvalSettings) (rubric output : String) : ComputeRequest :=
  { systemContext := settings.systemPrompt
    task := renderTemplate verificationTask [("rubric", rubric), ("output", output)]
    tau := settings.tau
    maxTokens := settings.maxTokens }

/-- First minimum of a non-empty list, as `Iterator::min_by` picks it. -/
def lowestPass : (ℚ × String × String) → List (ℚ × String × String) → ℚ × String × String
  | best, [] => best
  | best, pass :: rest => lowestPass (if pass.1 < best.1 then pass else best) rest

def nonEmptyText (s : String) : Option String := if s = "" then none else some s

/-- The `LlmJudge` arm: mean of the passes, reason and raw text of the lowest one. -/
def evalLlmJudge (json : ScoreJson) (settings : EvalSettings) (world : Evaluator)
    (output rubric : String) (path : List Nat) : Evaluation :=
  let passes := max settings.consensusPasses 1
  let request := scoreRequest settings rubric output
  let pairs := (List.range passes).map fun k =>
    let reply := world.execute path k request
    if reply.late then ((1 / 2 : ℚ), "", "") else llmScoreRaw json reply.output
  let avg := (pairs.map Prod.fst).sum / pairs.length
  match pairs with
  | [] => ⟨avg, none, none⟩
  | first :: rest =>
      let lowest := lowestPass first rest
      ⟨avg, nonEmptyText lowest.2.1, nonEmptyText lowest.2.2⟩

def binaryClassifierSystemPrompt : String :=
  "You are a precise text classifier. Answer with exactly one word: YES or NO. " ++
    "Do not add punctuation, explanation, or any other text."

/-- `majority_binary_check`: strict majority of YES answers, inverted for exclusions. -/
def majorityBinaryCheck (x : Externals) (settings : EvalSettings) (world : Evaluator)
    (prompt : String) (passes : Nat) (invert : Bool) (path : List Nat) : ℚ :=
  let passes := max passes 1
  let request : ComputeRequest :=
    { systemContext := binaryClassifierSystemPrompt
      task := prompt
      tau := settings.tau
      maxTokens := settings.maxTokens }
  let isYes := fun k =>
    match (world.execute path k request).output with
    | some answer =>
        "YES".toList.isPrefixOf (x.toUppercase (String.ofList (Text.trim answer.toList))).toList
    | none => false
  let yesCount := ((List.range passes).filter isYes).length
  let raw : ℚ := if passes < yesCount * 2 then 1 else 0
  if invert then 1 - raw else raw

def evalOracle (world : Evaluator) (testRunnerUri testSuite : String) (timeoutSecs : Nat)
    (output : String) (path : List Nat) : ℚ :=
  match world.testRunner path testRunnerUri testSuite timeoutSecs output with
  | some true => 1
  | _ => 0

/-- The async-leaf arms of `eval_predicate_async` against one outside world. -/
def leafAnswers (x : Externals) (json : ScoreJson) (settings : EvalSettings)
    (world : Evaluator) (output : String) : Answers := fun path leaf =>
  match leaf with
  | .llmJudge rubric => evalLlmJudge json settings world output rubric path
  | .oracleExecution uri suite timeoutSecs =>
      ⟨evalOracle world uri suite timeoutSecs output path, none, none⟩
  | .semanticOrdering first andThen passes =>
      ⟨majorityBinaryCheck x settings world
        ("Does the following response demonstrate that '" ++ first ++ "' occurs BEFORE '" ++
          andThen ++ "'? Answer with exactly one word: YES or NO.\n\n" ++ output)
        passes false path, none, none⟩
  | .semanticPresence concept passes =>
      ⟨majorityBinaryCheck x settings world
        ("Does the following response include or demonstrate '" ++ concept ++
          "'? Answer with exactly one word: YES or NO.\n\n" ++ output)
        passes false path, none, none⟩
  | .semanticExclusion pattern passes =>
      ⟨majorityBinaryCheck x settings world
        ("Does the following response contain '" ++ pattern ++
          "'? Answer with exactly one word: YES or NO.\n\n" ++ output)
        passes true path, none, none⟩
  | p => ⟨evalSync x output p, none, none⟩

/-! ## The range of the leaf scores -/

theorem clampUnit_unit (score : ℚ) : UnitScore (clampUnit score) :=
  ⟨le_max_left _ _, max_le (by norm_num) (min_le_left _ _)⟩

theorem llmScoreRaw_unit (json : ScoreJson) (response : Option String) :
    UnitScore (llmScoreRaw json response).1 := by
  have neutral : UnitScore (7 / 10) := by constructor <;> norm_num
  unfold llmScoreRaw
  split
  · exact neutral
  · split
    · exact clampUnit_unit _
    · exact neutral

theorem mean_unit (scores : List ℚ) (h : ∀ s ∈ scores, UnitScore s) :
    UnitScore (scores.sum / scores.length) := by
  have hnonneg : 0 ≤ scores.sum := List.sum_nonneg (fun s hs => (h s hs).1)
  have hle : scores.sum ≤ scores.length := by
    have hcard := List.sum_le_card_nsmul scores 1 (fun s hs => (h s hs).2)
    simpa using hcard
  exact ⟨by positivity, div_le_one_of_le₀ hle (by positivity)⟩

theorem evalLlmJudge_unit (json : ScoreJson) (settings : EvalSettings) (world : Evaluator)
    (output rubric : String) (path : List Nat) :
    UnitScore (evalLlmJudge json settings world output rubric path).score := by
  let pass := fun k =>
    let reply := world.execute path k (scoreRequest settings rubric output)
    if reply.late then ((1 / 2 : ℚ), "", "") else llmScoreRaw json reply.output
  let pairs := (List.range (max settings.consensusPasses 1)).map pass
  have hpass : ∀ k, UnitScore (pass k).1 := by
    intro k
    simp only [pass]
    split
    · constructor <;> norm_num
    · exact llmScoreRaw_unit json _
  have hmean : UnitScore ((pairs.map Prod.fst).sum / (pairs.map Prod.fst).length) := by
    apply mean_unit
    intro s hs
    obtain ⟨pair, hpair, rfl⟩ := List.mem_map.mp hs
    obtain ⟨k, _, rfl⟩ := List.mem_map.mp hpair
    exact hpass k
  rw [List.length_map] at hmean
  have hscore : (evalLlmJudge json settings world output rubric path).score =
      (pairs.map Prod.fst).sum / pairs.length := by
    unfold evalLlmJudge
    simp only [pairs, pass]
    split <;> rfl
  rw [hscore]
  exact hmean

theorem majorityBinaryCheck_unit (x : Externals) (settings : EvalSettings) (world : Evaluator)
    (prompt : String) (passes : Nat) (invert : Bool) (path : List Nat) :
    UnitScore (majorityBinaryCheck x settings world prompt passes invert path) := by
  unfold majorityBinaryCheck
  cases invert with
  | false => exact unitScore_ite _
  | true => exact (unitScore_ite _).complement

theorem leafAnswers_unit (x : Externals) (json : ScoreJson) (settings : EvalSettings)
    (world : Evaluator) (output : String) (path : List Nat) (leaf : ConstraintPredicate) :
    UnitScore (leafAnswers x json settings world output path leaf).score := by
  cases leaf with
  | llmJudge rubric => exact evalLlmJudge_unit json settings world output rubric path
  | oracleExecution uri suite timeoutSecs =>
      simp only [leafAnswers, evalOracle]
      split
      · exact unitScore_one
      · exact unitScore_zero
  | semanticOrdering first andThen passes => exact majorityBinaryCheck_unit _ _ _ _ _ _ _
  | semanticPresence concept passes => exact majorityBinaryCheck_unit _ _ _ _ _ _ _
  | semanticExclusion pattern passes => exact majorityBinaryCheck_unit _ _ _ _ _ _ _
  | vocabularyPresence | negativeKeyword | regexMatch | numericThreshold | composite
  | jsonSchema | lengthRange => exact evalSync_unit x output _

end ControlPlane.Source.Verification
