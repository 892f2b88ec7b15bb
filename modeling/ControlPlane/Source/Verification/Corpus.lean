import ControlPlane.Lib.Overlap
import ControlPlane.Lib.Sequences
import ControlPlane.Source.Verification.Predicate
import Mathlib.Logic.Function.Basic

/-!
# Evaluation of a corpus with the evaluation cache

Embeds `VerificationPhase::eval_all`, `score_from_verdicts`,
`parse_check_verdicts`, `parse_check_reasons` and `EvalCache` of
`crates/h2ai-orchestrator/src/verification.rs`, and the token-overlap
similarity of `repetition.rs` that decides a cache hit.

The per-constraint futures of `eval_all` are taken in corpus order, each run to
its end. Each of them touches the cache only under its own constraint id.
-/
namespace ControlPlane.Source.Verification

open Constraints

/-! ## Token similarity -/

/-- `tokenize`: maximal alphanumeric runs, lowercased, longer than one byte. -/
def tokenize (x : Externals) (text : String) : Finset String :=
  (((text.toList.splitOnP (fun c => !x.isAlphanumeric c)).filter (fun t => !t.isEmpty)).map
    (fun t => x.toLowercase (String.ofList t))).filter (fun t => decide (1 < t.utf8ByteSize))
    |>.toFinset

def tokenOverlap (a b : Finset String) : ℚ :=
  if a = ∅ ∧ b = ∅ then 0 else Lib.Overlap.jaccard a b

/-- `repetition::similarity`. -/
def similarity (x : Externals) (a b : String) : ℚ :=
  tokenOverlap (tokenize x a) (tokenize x b)

theorem similarity_self (x : Externals) {text : String} (h : tokenize x text ≠ ∅) :
    similarity x text text = 1 := by
  simp only [similarity, tokenOverlap, h, and_self, ↓reduceIte]
  exact Lib.Overlap.jaccard_self (Finset.nonempty_iff_ne_empty.mpr h)

theorem similarity_no_tokens (x : Externals) (other : String) {text : String}
    (h : tokenize x text = ∅) : similarity x other text = 0 := by
  simp only [similarity, tokenOverlap, h, Lib.Overlap.jaccard_empty_right, ite_self]

/-! ## Binary check verdicts -/

/-- One `CHECK ` segment: the zero-based check number and the text after its colon. -/
def parseCheckSegment (nChecks : Nat) (segment : List Char) :
    Option (Nat × List Char × List Char) :=
  let segment := Text.trim segment
  match Text.splitAtFirst ':' segment with
  | none => none
  | some (before, after) =>
      match Text.parseUsize (Text.trim before) with
      | none => none
      | some checkNum =>
          if 1 ≤ checkNum ∧ checkNum - 1 < nChecks then
            some (checkNum - 1, segment, Text.trim after)
          else none

/-- `PRESENT` after the last arrow, or at the start when there is no arrow. -/
def isPresent (afterColon : List Char) : Bool :=
  let verdict := match Text.afterLast '→' afterColon with
    | some tail => Text.trim tail
    | none => afterColon
  "PRESENT".toList.isPrefixOf (Text.toAsciiUppercase verdict)

def checkSegments (reason : String) : List (List Char) :=
  (Text.splitText reason.toList "CHECK ".toList).drop 1

/-- `parse_check_verdicts`: one verdict per check, `false` when none is found. -/
def parseCheckVerdicts (reason : String) (nChecks : Nat) : List Bool :=
  if nChecks = 0 then []
  else
    (checkSegments reason).foldl (fun verdicts segment =>
      match parseCheckSegment nChecks segment with
      | some (idx, _, after) => if isPresent after then verdicts.set idx true else verdicts
      | none => verdicts) (List.replicate nChecks false)

/-- `parse_check_reasons`: the whole segment of each check. -/
def parseCheckReasons (reason : String) (nChecks : Nat) : List String :=
  if nChecks = 0 then []
  else
    (checkSegments reason).foldl (fun out segment =>
      match parseCheckSegment nChecks segment with
      | some (idx, trimmed, _) => out.set idx ("CHECK " ++ String.ofList trimmed)
      | none => out) (List.replicate nChecks "")

theorem parseCheckVerdicts_length (reason : String) (nChecks : Nat) :
    (parseCheckVerdicts reason nChecks).length = nChecks := by
  have hstep : ∀ (verdicts : List Bool) (segment : List Char),
      (match parseCheckSegment nChecks segment with
        | some (idx, _, after) => if isPresent after then verdicts.set idx true else verdicts
        | none => verdicts).length = verdicts.length := by
    intro verdicts segment
    split
    · split <;> simp
    · rfl
  unfold parseCheckVerdicts
  split
  · simp_all
  · exact (Lib.length_foldl_of_step hstep (checkSegments reason) _).trans List.length_replicate

theorem parseCheckReasons_length (reason : String) (nChecks : Nat) :
    (parseCheckReasons reason nChecks).length = nChecks := by
  have hstep : ∀ (out : List String) (segment : List Char),
      (match parseCheckSegment nChecks segment with
        | some (idx, trimmed, _) => out.set idx ("CHECK " ++ String.ofList trimmed)
        | none => out).length = out.length := by
    intro out segment
    split
    · rw [List.length_set]
    · rfl
  unfold parseCheckReasons
  split
  · simp_all
  · exact (Lib.length_foldl_of_step hstep (checkSegments reason) _).trans List.length_replicate

/-- `score_from_verdicts`. -/
def scoreFromVerdicts (verdicts : List Bool) (nChecks : Nat) (llmFloat : ℚ) : ℚ :=
  if nChecks = 0 ∨ verdicts = [] then llmFloat
  else ((verdicts.filter id).length : ℚ) / nChecks

/-! ## The cache -/

/-- `EvalCache`: constraint id to the texts scored so far, oldest first. -/
abbrev EvalCache := String → List (String × ℚ)

def newEvalCache : EvalCache := fun _ => []

def cacheSimilarityThreshold : ℚ := 85 / 100

/-- The score of the first stored text that is similar enough. -/
def cacheLookup (x : Externals) (cache : EvalCache) (constraintId output : String) : Option ℚ :=
  ((cache constraintId).find?
    (fun entry => decide (cacheSimilarityThreshold ≤ similarity x entry.1 output))).map Prod.snd

def cachePush (cache : EvalCache) (constraintId output : String) (score : ℚ) : EvalCache :=
  Function.update cache constraintId (cache constraintId ++ [(output, score)])

/-! ## `eval_all` -/

/-- `f64::EPSILON`. -/
def f64Epsilon : ℚ := 1 / 2 ^ 52

def hasCheckMarkers (raw : Option String) : Bool :=
  raw.any fun r => Text.containsText r.toList "CHECK ".toList

def checkVerdictsOf (raw : Option String) (nChecks : Nat) : List Bool :=
  if hasCheckMarkers raw then (raw.map fun r => parseCheckVerdicts r nChecks).getD [] else []

def checkReasonsOf (raw : Option String) (nChecks : Nat) : List String :=
  if hasCheckMarkers raw then (raw.map fun r => parseCheckReasons r nChecks).getD [] else []

/-- The score `eval_all` reports for a predicate score, its reason and raw text. -/
def effectiveScore (nChecks : Nat) (e : Evaluation) : ℚ :=
  let verdicts := checkVerdictsOf e.raw nChecks
  if verdicts = [] ∧ 0 < nChecks ∧ e.reason = none ∧ 0 < e.score then
    max e.score (((nChecks : ℚ) - 1) / nChecks + f64Epsilon)
  else scoreFromVerdicts verdicts nChecks e.score

/-- The `ComplianceResult` built from an evaluation of `doc`. -/
def complianceResult (doc : ConstraintDoc) (e : Evaluation) : ComplianceResult :=
  let nChecks := doc.binaryChecks.length
  { constraintId := doc.id
    score := effectiveScore nChecks e
    severity := doc.severity
    remediationHint := doc.remediationHint
    constraintDescription := doc.description
    verifierReason := e.reason
    checkVerdicts := checkVerdictsOf e.raw nChecks
    criteriaPass := doc.passCriteria
    checkReasons := checkReasonsOf e.raw nChecks }

/-- The settings `eval_all` is called with. -/
structure CorpusSettings where
  rubric : String
  systemPrompt : String
  tau : ℚ
  maxTokens : Nat
  consensusPasses : Nat
  rubricThreshold : ℚ

def cotRubric : String :=
  "Evaluate the following proposal against these criteria. " ++
    "For each criterion, state whether the proposal satisfies it (yes/partial/no) and why. " ++
    "Then output a JSON object: \x7b\"score\": 0.0_to_1.0, \"reason\": \"one sentence\"\x7d\n\n" ++
    "Criteria:\n" ++
    "1. Does the proposal directly address the stated task?\n" ++
    "2. Is the response accurate and free of factual errors?\n" ++
    "3. Are all required constraints satisfied?\n" ++
    "4. Is the response appropriately concise (not padded with unnecessary content)."

def checkEvidenceFormatInstruction : String :=
  "After your analysis, you MUST output a verdict block in your FINAL VISIBLE RESPONSE " ++
    "(not inside any thinking or reasoning section). Use this exact format:\n" ++
    "CHECK VERDICTS:\n" ++
    "CHECK N: <one-sentence evidence from proposal> → PRESENT or MISSING\n" ++
    "Include every check number even if it passes. Never omit this block."

/-- What one constraint's evaluation passes down: several passes for Hard
constraints, greedy decoding and the evidence format when there are checks. -/
def docSettings (settings : CorpusSettings) (doc : ConstraintDoc) : EvalSettings :=
  let hasChecks := decide (0 < doc.binaryChecks.length)
  { systemPrompt :=
      if hasChecks then settings.systemPrompt ++ "\n\n" ++ checkEvidenceFormatInstruction
      else settings.systemPrompt
    tau := if hasChecks then 0 else settings.tau
    maxTokens := settings.maxTokens
    consensusPasses := if doc.severity.isHard then max settings.consensusPasses 1 else 1 }

/-- The predicate evaluation a cache miss runs. -/
def evalDoc (x : Externals) (json : ScoreJson) (settings : CorpusSettings) (output : String)
    (doc : ConstraintDoc) (world : Evaluator) : Evaluation :=
  evalPredicateAsync x output doc.predicate
    (leafAnswers x json (docSettings settings doc) world output)

/-- One future of `eval_all`: result, hit flag and the cache it leaves. -/
def evalCached (x : Externals) (json : ScoreJson) (settings : CorpusSettings) (output : String)
    (doc : ConstraintDoc) (world : Evaluator) (cache : EvalCache) :
    (ComplianceResult × Bool) × EvalCache :=
  match cacheLookup x cache doc.id output with
  | some score => ((complianceResult doc ⟨score, none, none⟩, true), cache)
  | none =>
      let e := evalDoc x json settings output doc world
      ((complianceResult doc e, false), cachePush cache doc.id output e.score)

/-- The futures of `eval_all` in corpus order; `i` is the corpus index of the
first document and `worlds` gives each constraint its outside world. -/
def evalDocs (x : Externals) (json : ScoreJson) (settings : CorpusSettings) (output : String)
    (worlds : Nat → Evaluator) :
    List ConstraintDoc → Nat → EvalCache → List (ComplianceResult × Bool) × EvalCache
  | [], _, cache => ([], cache)
  | doc :: docs, i, cache =>
      let first := evalCached x json settings output doc (worlds i) cache
      let rest := evalDocs x json settings output worlds docs (i + 1) first.2
      (first.1 :: rest.1, rest.2)

/-- The rubric fallback of an empty corpus; it does not touch the cache. -/
def rubricResult (json : ScoreJson) (settings : CorpusSettings) (output : String)
    (world : Evaluator) : ComplianceResult :=
  let effectiveRubric := if settings.rubric = "" then cotRubric else settings.rubric
  let evalSettings : EvalSettings :=
    ⟨settings.systemPrompt, settings.tau, settings.maxTokens, settings.consensusPasses⟩
  let scored := llmScoreRaw json
    (world.execute [] 0 (scoreRequest evalSettings effectiveRubric output)).output
  { constraintId := "__rubric__"
    score := scored.1
    severity := .hard settings.rubricThreshold
    remediationHint := none
    constraintDescription := ""
    verifierReason := nonEmptyText scored.2.1
    checkVerdicts := []
    criteriaPass := none
    checkReasons := [] }

/-- The result vector of `eval_all` with the hit flag of each entry. -/
def evalEntries (x : Externals) (json : ScoreJson) (settings : CorpusSettings)
    (corpus : List ConstraintDoc) (output : String) (worlds : Nat → Evaluator)
    (cache : EvalCache) : List (ComplianceResult × Bool) × EvalCache :=
  if corpus.isEmpty then ([(rubricResult json settings output (worlds 0), false)], cache)
  else evalDocs x json settings output worlds corpus 0 cache

/-- `eval_all`: the results, whether any of them was a cache hit, and the cache. -/
def evalAll (x : Externals) (json : ScoreJson) (settings : CorpusSettings)
    (corpus : List ConstraintDoc) (output : String) (worlds : Nat → Evaluator)
    (cache : EvalCache) : (List ComplianceResult × Bool) × EvalCache :=
  let entries := evalEntries x json settings corpus output worlds cache
  ((entries.1.map Prod.fst, entries.1.any Prod.snd), entries.2)

theorem checkVerdictsOf_eq_nil_iff (raw : Option String) {nChecks : Nat} (h : 0 < nChecks) :
    checkVerdictsOf raw nChecks = [] ↔ hasCheckMarkers raw = false := by
  unfold checkVerdictsOf
  cases raw with
  | none => simp [hasCheckMarkers]
  | some r =>
      cases hm : hasCheckMarkers (some r) with
      | false => simp
      | true =>
          have hlen := parseCheckVerdicts_length r nChecks
          simp only [↓reduceIte, Option.map_some, Option.getD_some, Bool.true_eq_false, iff_false]
          intro hnil
          rw [hnil] at hlen
          simp at hlen
          omega

theorem evalDocs_append (x : Externals) (json : ScoreJson) (settings : CorpusSettings)
    (output : String) (worlds : Nat → Evaluator) (before after : List ConstraintDoc) (i : Nat)
    (cache : EvalCache) :
    evalDocs x json settings output worlds (before ++ after) i cache =
      (let first := evalDocs x json settings output worlds before i cache
       let rest := evalDocs x json settings output worlds after (i + before.length) first.2
       (first.1 ++ rest.1, rest.2)) := by
  induction before generalizing i cache with
  | nil => rfl
  | cons doc before ih =>
      have hlen : i + 1 + before.length = i + (doc :: before).length := by
        simp only [List.length_cons]
        omega
      simp only [List.cons_append, evalDocs, ih, hlen]

/-! ## The cache along one evaluation -/

section Lookup

variable {x : Externals} {output : String}

theorem cacheLookup_no_tokens (h : tokenize x output = ∅) (cache : EvalCache) (id : String) :
    cacheLookup x cache id output = none := by
  have hmiss : (cache id).find?
      (fun entry => decide (cacheSimilarityThreshold ≤ similarity x entry.1 output)) = none := by
    rw [List.find?_eq_none]
    intro entry _
    rw [similarity_no_tokens x entry.1 h]
    norm_num [cacheSimilarityThreshold]
  simp [cacheLookup, hmiss]

theorem cacheLookup_push_other {id other : String} (h : other ≠ id) (cache : EvalCache)
    (score : ℚ) :
    cacheLookup x (cachePush cache id output score) other output =
      cacheLookup x cache other output := by
  simp [cacheLookup, cachePush, Function.update_of_ne h]

/-- A text that has tokens is similar to itself, so what is pushed is found unless
an older entry is found first. -/
theorem cacheLookup_push_self (h : tokenize x output ≠ ∅) (cache : EvalCache) (id : String)
    (score : ℚ) :
    cacheLookup x (cachePush cache id output score) id output =
      (cacheLookup x cache id output).or (some score) := by
  have hself : decide (cacheSimilarityThreshold ≤ similarity x output output) = true := by
    rw [similarity_self x h]
    norm_num [cacheSimilarityThreshold]
  simp only [cacheLookup, cachePush, Function.update_self, List.find?_append]
  cases hfound : (cache id).find?
      (fun entry => decide (cacheSimilarityThreshold ≤ similarity x entry.1 output)) with
  | none => simp [hself]
  | some entry => simp

variable (json : ScoreJson) (settings : CorpusSettings) (worlds : Nat → Evaluator)

/-- One future never changes what is found for an id that already hits. -/
theorem evalCached_keeps_hit (h : tokenize x output ≠ ∅) (doc : ConstraintDoc)
    (world : Evaluator) {cache : EvalCache} {id : String} {score : ℚ}
    (hit : cacheLookup x cache id output = some score) :
    cacheLookup x (evalCached x json settings output doc world cache).2 id output =
      some score := by
  unfold evalCached
  split
  · exact hit
  · by_cases hid : id = doc.id
    · subst hid
      simp only [cacheLookup_push_self h, hit, Option.some_or]
    · rw [cacheLookup_push_other hid]
      exact hit

theorem evalCached_other (doc : ConstraintDoc) (world : Evaluator) (cache : EvalCache)
    {id : String} (hid : id ≠ doc.id) :
    cacheLookup x (evalCached x json settings output doc world cache).2 id output =
      cacheLookup x cache id output := by
  unfold evalCached
  split
  · rfl
  · exact cacheLookup_push_other hid cache _

/-- After its own future, a document is found: with the stored score if it was
there before, else with the score just computed. -/
theorem evalCached_self (h : tokenize x output ≠ ∅) (doc : ConstraintDoc) (world : Evaluator)
    (cache : EvalCache) :
    cacheLookup x (evalCached x json settings output doc world cache).2 doc.id output =
      (cacheLookup x cache doc.id output).or
        (some (evalDoc x json settings output doc world).score) := by
  unfold evalCached
  cases hl : cacheLookup x cache doc.id output with
  | some score => simp [hl]
  | none => simp [cacheLookup_push_self h, hl]

theorem evalDocs_keeps_hit (h : tokenize x output ≠ ∅) (docs : List ConstraintDoc) (i : Nat)
    {cache : EvalCache} {id : String} {score : ℚ}
    (hit : cacheLookup x cache id output = some score) :
    cacheLookup x (evalDocs x json settings output worlds docs i cache).2 id output =
      some score := by
  induction docs generalizing i cache with
  | nil => exact hit
  | cons doc docs ih =>
      simp only [evalDocs]
      exact ih (i + 1) (evalCached_keeps_hit json settings h doc (worlds i) hit)

theorem evalDocs_hits (h : tokenize x output ≠ ∅) (docs : List ConstraintDoc) (i : Nat)
    (cache : EvalCache) {doc : ConstraintDoc} (member : doc ∈ docs) :
    ∃ score, cacheLookup x (evalDocs x json settings output worlds docs i cache).2 doc.id output =
      some score := by
  induction docs generalizing i cache with
  | nil => simp at member
  | cons head docs ih =>
      simp only [evalDocs]
      rcases List.mem_cons.mp member with rfl | later
      · have hself := evalCached_self json settings h doc (worlds i) cache
        cases hl : cacheLookup x cache doc.id output with
        | some score =>
            rw [hl, Option.some_or] at hself
            exact ⟨score, evalDocs_keeps_hit json settings worlds h docs (i + 1) hself⟩
        | none =>
            rw [hl, Option.none_or] at hself
            exact ⟨_, evalDocs_keeps_hit json settings worlds h docs (i + 1) hself⟩
      · exact ih (i + 1) _ later

/-- When every document hits, the evaluation only reads the cache. -/
theorem evalDocs_all_hits (docs : List ConstraintDoc) (i : Nat) (cache : EvalCache)
    (hits : ∀ doc ∈ docs, ∃ score, cacheLookup x cache doc.id output = some score) :
    evalDocs x json settings output worlds docs i cache =
      (docs.map fun doc => (complianceResult doc
        ⟨(cacheLookup x cache doc.id output).getD 0, none, none⟩, true), cache) := by
  induction docs generalizing i with
  | nil => rfl
  | cons doc docs ih =>
      obtain ⟨score, hscore⟩ := hits doc (by simp)
      have hfirst : evalCached x json settings output doc (worlds i) cache =
          ((complianceResult doc ⟨score, none, none⟩, true), cache) := by
        simp [evalCached, hscore]
      simp only [evalDocs, hfirst, ih (i + 1) (fun d hd => hits d (by simp [hd])),
        List.map_cons, hscore, Option.getD_some]

end Lookup

end ControlPlane.Source.Verification
