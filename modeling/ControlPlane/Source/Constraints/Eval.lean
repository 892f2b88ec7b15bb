import ControlPlane.Lib.Loops
import ControlPlane.Source.Constraints.Types
import ControlPlane.Source.Text
import Mathlib.Algebra.Order.Field.Basic
import Mathlib.Tactic.Linarith
import Mathlib.Tactic.Positivity
import Mathlib.Tactic.NormNum

/-!
# Synchronous predicate evaluation

Embeds `eval_sync`, `eval_vocabulary` and `eval_numeric` of
`crates/h2ai-constraints/src/eval.rs`. Unicode case tables, the regex engine,
float parsing and the JSON-schema validator come from outside the repository and
enter as the fields of `Externals`; every statement holds for all of them.
-/
namespace ControlPlane.Source.Constraints

open Text (containsText)

/-- What `str::parse::<f64>` can produce. Comparisons with NaN are all false. -/
inductive ParsedFloat where
  | finite (value : ℚ)
  | posInf | negInf | nan
  deriving DecidableEq, Repr

/-- A compiled regular expression: `captures` gives the groups by number. -/
structure Regex where
  isMatch : String → Bool
  captures : String → Option (Nat → Option String)

/-- Library functions the evaluator calls. -/
structure Externals where
  toLowercase : String → String
  toUppercase : String → String
  isAlphanumeric : Char → Bool
  regexNew : String → Option Regex
  parseF64 : String → Option ParsedFloat
  /-- `serde_json::from_str::<Value>(output)` succeeds. -/
  isJson : String → Bool
  /-- `validator_for(schema)`; the validator is applied to the parsed output. -/
  validatorFor : String → Option (String → Bool)

/-- An ASCII instance of the library functions, to run the model on plain inputs. -/
def asciiExternals : Externals :=
  { toLowercase := fun s => s.map Char.toLower
    toUppercase := fun s => s.map Char.toUpper
    isAlphanumeric := Char.isAlphanum
    regexNew := fun _ => none
    parseF64 := fun _ => none
    isJson := fun _ => false
    validatorFor := fun _ => none }

def evalVocabulary (x : Externals) (mode : VocabularyMode) (terms : List String)
    (lowerOutput : String) : ℚ :=
  if terms.isEmpty then 1
  else
    let hitCount :=
      (terms.filter fun t => containsText lowerOutput.toList (x.toLowercase t).toList).length
    match mode with
    | .allOf => (hitCount : ℚ) / terms.length
    | .anyOf => if 0 < hitCount then 1 else 0
    | .noneOf => if hitCount = 0 then 1 else 0

/-- The comparison of `eval_numeric`, total on everything the parser returns. -/
def NumericOp.passes (op : NumericOp) (v : ParsedFloat) (threshold : ℚ) : Bool :=
  match v, op with
  | .finite q, .lt => decide (q < threshold)
  | .finite q, .le => decide (q ≤ threshold)
  | .finite q, .eq => decide (|q - threshold| < 1 / 1000000000)
  | .finite q, .ge => decide (threshold ≤ q)
  | .finite q, .gt => decide (threshold < q)
  | .posInf, .ge | .posInf, .gt | .negInf, .lt | .negInf, .le => true
  | _, _ => false

def evalNumeric (x : Externals) (fieldPattern : String) (op : NumericOp) (threshold : ℚ)
    (output : String) : ℚ :=
  match x.regexNew fieldPattern with
  | none => 0
  | some re =>
      match re.captures output with
      | none => 0
      | some group =>
          -- group 1 when it took part in the match, else the whole match
          match (group 1).or (group 0) with
          | none => 0
          | some numStr =>
              match x.parseF64 numStr with
              | none => 0
              | some v => if op.passes v threshold then 1 else 0

def inLengthRange (minChars maxChars : Option Nat) (len : Nat) : Bool :=
  minChars.all (fun m => decide (m ≤ len)) && maxChars.all (fun m => decide (len ≤ m))

mutual
/-- `eval_sync`. The async leaves are pass-throughs here: 1 for the language-model
leaves, 0 for a test runner. -/
def evalSync (x : Externals) (output : String) : ConstraintPredicate → ℚ
  | .vocabularyPresence mode terms => evalVocabulary x mode terms (x.toLowercase output)
  | .negativeKeyword terms => evalVocabulary x .noneOf terms (x.toLowercase output)
  | .regexMatch pattern mustMatch =>
      match x.regexNew pattern with
      | none => 0
      | some re => if re.isMatch output = mustMatch then 1 else 0
  | .numericThreshold fieldPattern op value => evalNumeric x fieldPattern op value output
  | .llmJudge _ | .semanticPresence .. | .semanticOrdering .. | .semanticExclusion .. => 1
  | .oracleExecution .. => 0
  | .jsonSchema schema =>
      if x.isJson output then
        match x.validatorFor schema with
        | none => 0
        | some isValid => if isValid output then 1 else 0
      else 0
  | .lengthRange minChars maxChars =>
      if inLengthRange minChars maxChars output.toList.length then 1 else 0
  | .composite .and children => (evalSyncAll x output children).foldl min 1
  | .composite .or children => (evalSyncAll x output children).foldl max 0
  | .composite .not children => 1 - (evalSyncAll x output children).head?.getD 0
/-- The score vector of a composite's children, in order. -/
def evalSyncAll (x : Externals) (output : String) : List ConstraintPredicate → List ℚ
  | [] => []
  | child :: rest => evalSync x output child :: evalSyncAll x output rest
end

/-- A score lies in the unit interval. -/
def UnitScore (score : ℚ) : Prop := 0 ≤ score ∧ score ≤ 1

theorem unitScore_zero : UnitScore 0 := by constructor <;> norm_num

theorem unitScore_one : UnitScore 1 := by constructor <;> norm_num

theorem unitScore_ite (c : Prop) [Decidable c] : UnitScore (if c then 1 else 0) := by
  split
  · exact unitScore_one
  · exact unitScore_zero

theorem UnitScore.complement {score : ℚ} (h : UnitScore score) : UnitScore (1 - score) :=
  ⟨by linarith [h.2], by linarith [h.1]⟩

theorem unitScore_foldl_min (scores : List ℚ) (h : ∀ s ∈ scores, UnitScore s) :
    UnitScore (scores.foldl min 1) :=
  ⟨(Lib.ScanFold.le_foldl_min_iff scores 1 0).mpr ⟨by norm_num, fun s hs => (h s hs).1⟩,
    Lib.ScanFold.foldl_min_le_start scores 1⟩

theorem unitScore_foldl_max (scores : List ℚ) (h : ∀ s ∈ scores, UnitScore s) :
    UnitScore (scores.foldl max 0) :=
  ⟨Lib.ScanFold.start_le_foldl_max scores 0,
    (Lib.ScanFold.foldl_max_le_iff scores 0 1).mpr ⟨by norm_num, fun s hs => (h s hs).2⟩⟩

theorem unitScore_head (scores : List ℚ) (h : ∀ s ∈ scores, UnitScore s) :
    UnitScore (scores.head?.getD 0) := by
  cases scores with
  | nil => exact unitScore_zero
  | cons s rest => exact h s (by simp)

theorem evalVocabulary_unit (x : Externals) (mode : VocabularyMode) (terms : List String)
    (lower : String) : UnitScore (evalVocabulary x mode terms lower) := by
  unfold evalVocabulary
  split
  · exact unitScore_one
  next nonempty =>
    cases mode with
    | allOf =>
        have hpos : (0 : ℚ) < terms.length := by
          simpa [List.length_pos_iff] using nonempty
        refine ⟨by positivity, (div_le_one hpos).mpr ?_⟩
        exact_mod_cast List.length_filter_le _ terms
    | anyOf => exact unitScore_ite _
    | noneOf => exact unitScore_ite _

theorem evalNumeric_unit (x : Externals) (fieldPattern : String) (op : NumericOp)
    (threshold : ℚ) (output : String) :
    UnitScore (evalNumeric x fieldPattern op threshold output) := by
  unfold evalNumeric
  split
  · exact unitScore_zero
  split
  · exact unitScore_zero
  split
  · exact unitScore_zero
  split
  · exact unitScore_zero
  · exact unitScore_ite _

mutual
/-- Documented range of `eval_sync`: every tree scores in `[0, 1]`. -/
theorem evalSync_unit (x : Externals) (output : String) :
    (p : ConstraintPredicate) → UnitScore (evalSync x output p)
  | .vocabularyPresence mode terms => evalVocabulary_unit x mode terms _
  | .negativeKeyword terms => evalVocabulary_unit x .noneOf terms _
  | .regexMatch pattern mustMatch => by
      simp only [evalSync]
      split
      · exact unitScore_zero
      · exact unitScore_ite _
  | .numericThreshold fieldPattern op value => evalNumeric_unit x fieldPattern op value output
  | .llmJudge _ => unitScore_one
  | .semanticPresence .. => unitScore_one
  | .semanticOrdering .. => unitScore_one
  | .semanticExclusion .. => unitScore_one
  | .oracleExecution .. => unitScore_zero
  | .jsonSchema schema => by
      simp only [evalSync]
      split
      · split
        · exact unitScore_zero
        · exact unitScore_ite _
      · exact unitScore_zero
  | .lengthRange minChars maxChars => unitScore_ite _
  | .composite .and children => unitScore_foldl_min _ (evalSyncAll_unit x output children)
  | .composite .or children => unitScore_foldl_max _ (evalSyncAll_unit x output children)
  | .composite .not children =>
      (unitScore_head _ (evalSyncAll_unit x output children)).complement
theorem evalSyncAll_unit (x : Externals) (output : String) :
    (children : List ConstraintPredicate) → ∀ s ∈ evalSyncAll x output children, UnitScore s
  | [], _, hs => by simp [evalSyncAll] at hs
  | child :: rest, s, hs => by
      simp only [evalSyncAll, List.mem_cons] at hs
      rcases hs with rfl | hs
      · exact evalSync_unit x output child
      · exact evalSyncAll_unit x output rest s hs
end

end ControlPlane.Source.Constraints
