import ControlPlane.Guarantees.CacheTransparency
import ControlPlane.Guarantees.CompositeSemantics

/-!
# The benefit of the doubt for a silent judge

A constraint with binary checks is scored by the fraction of checks its judge
marks PRESENT. When the judge says nothing, `eval_all` lifts the score above the
check threshold, so that a failed call does not block a proposal. It takes an
empty reason for silence. Static predicates, `Or` and `Not` nodes, cache hits and
judges that score without a reason have an empty reason as well. This module says
which calls an evaluation makes, when one of them is silent, and exactly when a
document without a silent judge keeps its own score or its fraction.
-/
namespace ControlPlane.Guarantees.SilentJudge

open Source.Constraints Source.Verification Lib.ScanFold CompositeSemantics CacheTransparency

/-! ## Which judges are asked -/

/-- The leaves below child `i`, seen from its parent. -/
def below (i : Nat) (leaves : List (List Nat × ConstraintPredicate)) :
    List (List Nat × ConstraintPredicate) :=
  leaves.map fun leaf => (i :: leaf.1, leaf.2)

/-- The deferred children of an `And` node that are asked: all of them in order, up
to the one that brings the minimum to zero. -/
def askedDeferred :
    List ConstraintPredicate → Answers → Nat → ℚ → List (List Nat × ConstraintPredicate)
  | [], _, _, _ => []
  | child :: rest, answers, i, minScore =>
      if child.isAsyncLeaf then
        let score := (answers [i] child).score
        let next := if score < minScore then score else minScore
        ([i], child) :: (if next ≤ 0 then [] else askedDeferred rest answers (i + 1) next)
      else askedDeferred rest answers (i + 1) minScore

mutual
/-- The async leaves one evaluation asks, with their paths. -/
def askedLeaves (x : Externals) (output : String) :
    ConstraintPredicate → Answers → List (List Nat × ConstraintPredicate)
  | .composite .and children, answers =>
      match andStatic x output children 1 with
      | none => []
      | some minScore => askedDeferred children answers 0 minScore
  | .composite .or children, answers => askedOr x output children answers 0 0
  | .composite .not [], _ => []
  | .composite .not (child :: _), answers =>
      below 0 (askedLeaves x output child (answers.child 0))
  | p, _ => if p.isAsyncLeaf then [([], p)] else []
/-- The `Or` arm asks child after child until one of them scores one. -/
def askedOr (x : Externals) (output : String) :
    List ConstraintPredicate → Answers → Nat → ℚ → List (List Nat × ConstraintPredicate)
  | [], _, _, _ => []
  | child :: rest, answers, i, maxScore =>
      let next := max maxScore (evalPredicateAsync x output child (answers.child i)).score
      below i (askedLeaves x output child (answers.child i)) ++
        (if 1 ≤ next then [] else askedOr x output rest answers (i + 1) next)
end

/-- The call failed, came too late, or holds no score object. -/
def SilentReply (json : ScoreJson) (reply : Reply) : Prop :=
  reply.late = true ∨
    ∀ raw, reply.output = some raw → extractJsonObject json raw.toList = none

/-- One of the passes over a judge leaf is silent. The other leaves are no judges. -/
def SilentLeaf (json : ScoreJson) (settings : EvalSettings) (world : Evaluator)
    (output : String) : List Nat × ConstraintPredicate → Prop
  | (path, .llmJudge rubric) =>
      ∃ k < max settings.consensusPasses 1,
        SilentReply json (world.execute path k (scoreRequest settings rubric output))
  | _ => False

section Document

variable (x : Externals) (json : ScoreJson) (settings : CorpusSettings) (output : String)
  (doc : ConstraintDoc) (world : Evaluator) (cache : EvalCache)

/-- What the async leaves of the document's predicate answer. -/
def docAnswers : Answers := leafAnswers x json (docSettings settings doc) world output

/-- A judge call of this document's evaluation is silent. A cache hit makes no call. -/
def JudgeSilent : Prop :=
  cacheLookup x cache doc.id output = none ∧
    ∃ leaf ∈ askedLeaves x output doc.predicate (docAnswers x json settings output doc world),
      SilentLeaf json (docSettings settings doc) world output leaf

/-- The predicate score of the document, with the reason and the raw answer. -/
def docEvaluation : Evaluation :=
  match cacheLookup x cache doc.id output with
  | some score => ⟨score, none, none⟩
  | none => evalDoc x json settings output doc world

/-! ## Statement -/

/-- With binary checks and no silent judge, the reported score is the fraction of
PRESENT checks if the raw answer carries markers and the predicate's own score if
it does not. -/
def LiftsOnlySilent (reported : ℚ) : Prop :=
  0 < doc.binaryChecks.length → ¬JudgeSilent x json settings output doc world cache →
    reported =
      (let e := docEvaluation x json settings output doc world cache
       if hasCheckMarkers e.raw then presentFraction doc.binaryChecks.length e.raw else e.score)

/-- A score that the neutral bump leaves as it is. -/
def Unliftable (nChecks : Nat) (score : ℚ) : Prop :=
  score ≤ 0 ∨ ((nChecks : ℚ) - 1) / nChecks + f64Epsilon ≤ score

/-- Answers of the deferred children of an `And` node. -/
def deferredAnswers : List ConstraintPredicate → Answers → Nat → List Evaluation
  | [], _, _ => []
  | child :: rest, answers, i =>
      if child.isAsyncLeaf then answers [i] child :: deferredAnswers rest answers (i + 1)
      else deferredAnswers rest answers (i + 1)

/-- The predicate is a leaf whose answer has a reason, or an `And` node on which the
first lowest of the deferred answers has one and stays below one and below every
static child. -/
def ReasonGiven : ConstraintPredicate → Answers → Prop
  | .composite .and children, answers =>
      ∃ e, FirstLowest Evaluation.score (deferredAnswers children answers 0) e ∧ e.score < 1 ∧
        (∀ s ∈ staticScores x output children, e.score < s) ∧ e.reason ≠ none
  | p, answers => p.isAsyncLeaf = true ∧ (answers [] p).reason ≠ none

/-- The predicate is a leaf whose raw answer has markers. -/
def MarkersShown (p : ConstraintPredicate) (answers : Answers) : Prop :=
  p.isAsyncLeaf = true ∧ hasCheckMarkers (answers [] p).raw = true

/-- There is nothing to lift: no checks, or a stored score that the bump leaves alone,
or, on a miss, a silent judge, markers, a reason, or a value of the tree that the bump
leaves alone. -/
def NothingToLift : Prop :=
  doc.binaryChecks.length = 0 ∨
    match cacheLookup x cache doc.id output with
    | some score => Unliftable doc.binaryChecks.length score
    | none =>
        let answers := docAnswers x json settings output doc world
        JudgeSilent x json settings output doc world cache ∨
          MarkersShown doc.predicate answers ∨ ReasonGiven x output doc.predicate answers ∨
          Unliftable doc.binaryChecks.length
            (refScore x output doc.predicate (effective doc.predicate answers))

end Document

/-! ## The evaluation depends only on the leaves it asks -/

section Asked

variable (x : Externals) (output : String)

theorem andDeferred_congr (children : List ConstraintPredicate) (answers answers' : Answers)
    (i : Nat) (m : ℚ) (r : Option String)
    (same : ∀ leaf ∈ askedDeferred children answers i m,
      answers leaf.1 leaf.2 = answers' leaf.1 leaf.2) :
    andDeferred x output children answers i m r = andDeferred x output children answers' i m r := by
  induction children generalizing i m r with
  | nil => simp only [andDeferred]
  | cons child rest ih =>
      by_cases h : child.isAsyncLeaf = true
      · simp only [askedDeferred, h, ↓reduceIte, List.forall_mem_cons] at same
        obtain ⟨hchild, hrest⟩ := same
        simp only [andDeferred, h, ↓reduceIte, evalPredicateAsync_asyncLeaf x output child _ h,
          Answers.child, ← hchild]
        generalize (if (answers [i] child).score < m then (answers [i] child).score else m) = next
          at hrest ⊢
        by_cases hstop : next ≤ 0
        · simp only [hstop, ↓reduceIte]
        · simp only [hstop, ↓reduceIte] at hrest ⊢
          exact ih _ _ _ hrest
      · simp only [askedDeferred, h, Bool.false_eq_true, ↓reduceIte] at same
        simp only [andDeferred, h, Bool.false_eq_true, ↓reduceIte]
        exact ih _ _ _ same

mutual
/-- Answers that agree on the asked leaves give the same evaluation. -/
theorem evalPredicateAsync_congr :
    (p : ConstraintPredicate) → (answers answers' : Answers) →
    (∀ leaf ∈ askedLeaves x output p answers, answers leaf.1 leaf.2 = answers' leaf.1 leaf.2) →
    evalPredicateAsync x output p answers = evalPredicateAsync x output p answers'
  | .composite .and children, answers, answers', same => by
      simp only [evalPredicateAsync]
      cases hstatic : andStatic x output children 1 with
      | none => rfl
      | some m =>
          simp only [askedLeaves, hstatic] at same
          exact andDeferred_congr x output children answers answers' 0 m none same
  | .composite .or children, answers, answers', same => by
      simp only [askedLeaves] at same
      simp only [evalPredicateAsync]
      exact orLoop_congr children answers answers' 0 0 same
  | .composite .not [], _, _, _ => by simp only [evalPredicateAsync]
  | .composite .not (child :: _), answers, answers', same => by
      simp only [askedLeaves, below, List.forall_mem_map] at same
      simp only [evalPredicateAsync,
        evalPredicateAsync_congr child (answers.child 0) (answers'.child 0) same]
  | .llmJudge _, _, _, same => same _ (List.mem_singleton.mpr rfl)
  | .oracleExecution .., _, _, same => same _ (List.mem_singleton.mpr rfl)
  | .semanticPresence .., _, _, same => same _ (List.mem_singleton.mpr rfl)
  | .semanticOrdering .., _, _, same => same _ (List.mem_singleton.mpr rfl)
  | .semanticExclusion .., _, _, same => same _ (List.mem_singleton.mpr rfl)
  | .vocabularyPresence .., _, _, _ => rfl
  | .negativeKeyword .., _, _, _ => rfl
  | .regexMatch .., _, _, _ => rfl
  | .numericThreshold .., _, _, _ => rfl
  | .jsonSchema .., _, _, _ => rfl
  | .lengthRange .., _, _, _ => rfl
theorem orLoop_congr :
    (children : List ConstraintPredicate) → (answers answers' : Answers) → (i : Nat) → (m : ℚ) →
    (∀ leaf ∈ askedOr x output children answers i m,
      answers leaf.1 leaf.2 = answers' leaf.1 leaf.2) →
    orLoop x output children answers i m = orLoop x output children answers' i m
  | [], _, _, _, _, _ => by simp only [orLoop]
  | child :: rest, answers, answers', i, m, same => by
      simp only [askedOr, List.forall_mem_append, below, List.forall_mem_map] at same
      obtain ⟨hchild, hrest⟩ := same
      simp only [orLoop,
        ← evalPredicateAsync_congr child (answers.child i) (answers'.child i) hchild]
      split
      · rfl
      next hgo =>
        simp only [hgo, ↓reduceIte] at hrest
        exact orLoop_congr rest answers answers' (i + 1) _ hrest
end

end Asked

/-! ## Reasons and raw answers -/

section Reasons

variable {x : Externals} {output : String}

theorem andDeferred_raw (children : List ConstraintPredicate) (answers : Answers) (i : Nat)
    (m : ℚ) (r : Option String) : (andDeferred x output children answers i m r).raw = none := by
  induction children generalizing i m r with
  | nil => simp only [andDeferred]
  | cons child rest ih =>
      simp only [andDeferred]
      split
      · generalize (if (evalPredicateAsync x output child (answers.child i)).score < m then
          (evalPredicateAsync x output child (answers.child i)).score else m) = next
        split
        · rfl
        · exact ih _ _ _
      · exact ih _ _ _

theorem orLoop_silent (children : List ConstraintPredicate) (answers : Answers) (i : Nat) (m : ℚ) :
    (orLoop x output children answers i m).reason = none ∧
      (orLoop x output children answers i m).raw = none := by
  induction children generalizing i m with
  | nil => simp [orLoop]
  | cons child rest ih =>
      simp only [orLoop]
      split
      · exact ⟨rfl, rfl⟩
      · exact ih _ _

/-- Only a leaf hands on its raw answer. -/
theorem evalPredicateAsync_raw (p : ConstraintPredicate) (answers : Answers) :
    (evalPredicateAsync x output p answers).raw =
      if p.isAsyncLeaf then (answers [] p).raw else none := by
  cases p with
  | composite op children =>
      cases op with
      | and =>
          simp only [evalPredicateAsync]
          cases andStatic x output children 1 with
          | none => rfl
          | some m => exact andDeferred_raw _ _ _ _ _
      | or =>
          simp only [evalPredicateAsync]
          exact (orLoop_silent _ _ _ _).2
      | not => cases children <;> simp [evalPredicateAsync, ConstraintPredicate.isAsyncLeaf]
  | llmJudge | oracleExecution | semanticPresence | semanticOrdering | semanticExclusion => rfl
  | vocabularyPresence | negativeKeyword | regexMatch | numericThreshold | jsonSchema
  | lengthRange => rfl

/-- The reason of the second `And` loop is the one of the answer that set the minimum. -/
theorem andDeferred_reason (children : List ConstraintPredicate) (answers : Answers) (i : Nat)
    (m : ℚ) (held : Option Evaluation) :
    (andDeferred x output children answers i m (held.bind Evaluation.reason)).reason =
      (holdLowest Evaluation.score 0 m held (deferredAnswers children answers i)).bind Evaluation.reason := by
  induction children generalizing i m held with
  | nil => simp only [andDeferred, deferredAnswers, holdLowest]
  | cons child rest ih =>
      by_cases h : child.isAsyncLeaf = true
      · simp only [andDeferred, deferredAnswers, h, ↓reduceIte, holdLowest,
          evalPredicateAsync_asyncLeaf x output child _ h, Answers.child]
        have hreason : (if (answers [i] child).score < m then (answers [i] child).reason
              else held.bind Evaluation.reason) =
            (if (answers [i] child).score < m then some (answers [i] child) else held).bind
              Evaluation.reason := by
          split <;> rfl
        rw [hreason]
        generalize (if (answers [i] child).score < m then (answers [i] child).score else m) = next
        split
        · rfl
        · exact ih _ _ _
      · simp only [andDeferred, deferredAnswers, h, Bool.false_eq_true, ↓reduceIte]
        exact ih _ _ _

theorem mem_deferredAnswers {children : List ConstraintPredicate} {answers : Answers} {i : Nat}
    {e : Evaluation} (h : e ∈ deferredAnswers children answers i) :
    ∃ path leaf, e = answers path leaf := by
  induction children generalizing i with
  | nil => simp [deferredAnswers] at h
  | cons child rest ih =>
      simp only [deferredAnswers] at h
      split at h
      · rcases List.mem_cons.mp h with rfl | hrest
        · exact ⟨[i], child, rfl⟩
        · exact ih hrest
      · exact ih h

/-- The bound the first `And` loop hands on, when it hands on one. -/
theorem andStatic_above {children : List ConstraintPredicate} {score : ℚ} (nonneg : 0 ≤ score) :
    (∃ m, andStatic x output children 1 = some m ∧ score < m) ↔
      score < 1 ∧ ∀ s ∈ staticScores x output children, score < s := by
  have hunit : ∀ s ∈ staticScores x output children, 0 ≤ s := by
    intro s hs
    obtain ⟨child, _, rfl⟩ := List.mem_map.mp hs
    exact (evalSync_unit x output child).1
  have hfold := andStatic_getD x output children 1
  rw [scanMin_eq_foldl 0 1 _ (by norm_num) hunit] at hfold
  rw [← lt_foldl_min_iff, ← hfold]
  cases andStatic x output children 1 with
  | none => simp [nonneg]
  | some m => simp

/-- An `And` node gives a reason exactly where its first lowest deferred answer has one and
is below every static child. -/
theorem and_reason (children : List ConstraintPredicate) {answers : Answers}
    (unit : UnitAnswers answers) :
    (evalPredicateAsync x output (.composite .and children) answers).reason ≠ none ↔
      ReasonGiven x output (.composite .and children) answers := by
  have hnonneg : ∀ e ∈ deferredAnswers children answers 0, (0 : ℚ) ≤ e.score := by
    intro e he
    obtain ⟨path, leaf, rfl⟩ := mem_deferredAnswers he
    exact (unit path leaf).1
  have habove : ∀ e, FirstLowest Evaluation.score (deferredAnswers children answers 0) e →
      ((∃ m, andStatic x output children 1 = some m ∧ e.score < m) ↔
        e.score < 1 ∧ ∀ s ∈ staticScores x output children, e.score < s) := by
    intro e he
    obtain ⟨before, after, hsplit, _, _⟩ := he
    exact andStatic_above (hnonneg e (by simp [hsplit]))
  simp only [evalPredicateAsync, ReasonGiven]
  cases hstatic : andStatic x output children 1 with
  | none =>
      simp only [ne_eq, not_true_eq_false, false_iff, not_exists]
      intro e h
      obtain ⟨m, hm, _⟩ := (habove e h.1).mpr ⟨h.2.1, h.2.2.1⟩
      rw [hstatic] at hm
      cases hm
  | some m =>
      have hm : 0 < m := andStatic_pos (by norm_num) hstatic
      have hreason := @andDeferred_reason x output children answers 0 m none
      simp only [Option.bind_none] at hreason
      simp only [hreason, ne_eq, Option.bind_eq_none_iff, not_forall, exists_prop]
      constructor
      · intro h
        obtain ⟨e, hheld, he⟩ := h
        rw [holdLowest_eq_some_iff Evaluation.score none hm hnonneg] at hheld
        rcases hheld with ⟨hfirst, hlt⟩ | ⟨hnone, _⟩
        · obtain ⟨hone, hall⟩ := (habove e hfirst).mp ⟨m, hstatic, hlt⟩
          exact ⟨e, hfirst, hone, hall, he⟩
        · cases hnone
      · intro h
        obtain ⟨e, hfirst, hone, hall, he⟩ := h
        obtain ⟨m', hm', hlt⟩ := (habove e hfirst).mpr ⟨hone, hall⟩
        rw [hstatic, Option.some.injEq] at hm'
        subst hm'
        exact ⟨e, (holdLowest_eq_some_iff Evaluation.score none hm hnonneg e).mpr
          (Or.inl ⟨hfirst, hlt⟩), he⟩

theorem evalPredicateAsync_reason (p : ConstraintPredicate) {answers : Answers}
    (unit : UnitAnswers answers) :
    (evalPredicateAsync x output p answers).reason ≠ none ↔ ReasonGiven x output p answers := by
  cases p with
  | composite op children =>
      cases op with
      | and => exact and_reason children unit
      | or =>
          simp only [evalPredicateAsync, ReasonGiven, (orLoop_silent _ _ _ _).1,
            ConstraintPredicate.isAsyncLeaf, Bool.false_eq_true, false_and, ne_eq, not_true_eq_false]
      | not =>
          cases children <;>
            simp [evalPredicateAsync, ReasonGiven, ConstraintPredicate.isAsyncLeaf]
  | llmJudge | oracleExecution | semanticPresence | semanticOrdering | semanticExclusion =>
      simp [evalPredicateAsync, ReasonGiven, ConstraintPredicate.isAsyncLeaf]
  | vocabularyPresence | negativeKeyword | regexMatch | numericThreshold | jsonSchema
  | lengthRange =>
      simp [evalPredicateAsync, ReasonGiven, ConstraintPredicate.isAsyncLeaf]

end Reasons

/-! ## The guarantee -/

/-- With checks, a score is reported as it is exactly when there are markers, a reason,
or a score that the bump leaves alone. -/
theorem effectiveScore_kept_iff {nChecks : Nat} (hn : 0 < nChecks) (e : Evaluation) :
    effectiveScore nChecks e =
        (if hasCheckMarkers e.raw then presentFraction nChecks e.raw else e.score) ↔
      hasCheckMarkers e.raw = true ∨ e.reason ≠ none ∨ Unliftable nChecks e.score := by
  cases hm : hasCheckMarkers e.raw with
  | true => simp [effectiveScore_markers hn hm]
  | false =>
      rw [effectiveScore_no_markers hn hm]
      by_cases hr : e.reason = none
      · simp only [hr, ↓reduceIte, Bool.false_eq_true, hitScore_eq_self_iff, Unliftable, false_or,
          ne_eq, not_true_eq_false]
      · simp [hr]

section Guarantee

variable (x : Externals) (json : ScoreJson) (settings : CorpusSettings) (output : String)

theorem evalDocs_length (worlds : Nat → Evaluator) (docs : List ConstraintDoc) (i : Nat)
    (cache : EvalCache) :
    (evalDocs x json settings output worlds docs i cache).1.length = docs.length := by
  induction docs generalizing i cache with
  | nil => rfl
  | cons doc docs ih => simp [evalDocs, ih]

/-- The entry of a document is built from its evaluation under the cache that the
documents before it leave. -/
theorem evalAll_entry (worlds : Nat → Evaluator) (before : List ConstraintDoc)
    (doc : ConstraintDoc) (after : List ConstraintDoc) (cache : EvalCache) :
    (evalAll x json settings (before ++ doc :: after) output worlds cache).1.1[before.length]? =
      some (complianceResult doc (docEvaluation x json settings output doc (worlds before.length)
        (evalDocs x json settings output worlds before 0 cache).2)) := by
  have hlen := evalDocs_length x json settings output worlds before 0 cache
  have hnonempty : (before ++ doc :: after).isEmpty = false := by simp
  simp only [evalAll, evalEntries, hnonempty, Bool.false_eq_true, ↓reduceIte, evalDocs_append,
    Nat.zero_add, List.map_append, evalDocs, List.map_cons]
  rw [List.getElem?_append_right (by simp [hlen])]
  simp only [List.length_map, hlen, Nat.sub_self, List.getElem?_cons_zero, Option.some.injEq]
  unfold evalCached docEvaluation
  cases cacheLookup x (evalDocs x json settings output worlds before 0 cache).2 doc.id output with
  | some score => rfl
  | none => rfl

theorem nothingToLift_iff (doc : ConstraintDoc) (world : Evaluator) (cache : EvalCache) :
    NothingToLift x json settings output doc world cache ↔
      doc.binaryChecks.length = 0 ∨ JudgeSilent x json settings output doc world cache ∨
        (let e := docEvaluation x json settings output doc world cache
         hasCheckMarkers e.raw = true ∨ e.reason ≠ none ∨
          Unliftable doc.binaryChecks.length e.score) := by
  have unit : UnitAnswers (docAnswers x json settings output doc world) :=
    leafAnswers_unit x json (docSettings settings doc) world output
  unfold NothingToLift docEvaluation
  cases hl : cacheLookup x cache doc.id output with
  | some score => simp [JudgeSilent, hl, hasCheckMarkers]
  | none =>
      have hmarkers : hasCheckMarkers (evalDoc x json settings output doc world).raw = true ↔
          MarkersShown doc.predicate (docAnswers x json settings output doc world) := by
        unfold evalDoc MarkersShown docAnswers
        rw [evalPredicateAsync_raw]
        cases doc.predicate.isAsyncLeaf <;> simp [hasCheckMarkers]
      have hreason : (evalDoc x json settings output doc world).reason ≠ none ↔
          ReasonGiven x output doc.predicate (docAnswers x json settings output doc world) :=
        evalPredicateAsync_reason doc.predicate unit
      have hscore : (evalDoc x json settings output doc world).score =
          refScore x output doc.predicate
            (effective doc.predicate (docAnswers x json settings output doc world)) :=
        evalPredicateAsync_score x output doc.predicate _ unit
      simp only [hmarkers, hreason, hscore]

/-- For every corpus, document, predicate tree, judge behaviour and cache: without a
silent judge the document keeps its own score or its fraction of PRESENT checks
exactly when there is nothing to lift. -/
theorem evalAll_lifts_only_silent_iff (worlds : Nat → Evaluator) (before : List ConstraintDoc)
    (doc : ConstraintDoc) (after : List ConstraintDoc) (cache : EvalCache) :
    (∃ result, (evalAll x json settings (before ++ doc :: after) output worlds
          cache).1.1[before.length]? = some result ∧
        LiftsOnlySilent x json settings output doc (worlds before.length)
          (evalDocs x json settings output worlds before 0 cache).2 result.score) ↔
      NothingToLift x json settings output doc (worlds before.length)
        (evalDocs x json settings output worlds before 0 cache).2 := by
  rw [evalAll_entry, nothingToLift_iff]
  simp only [Option.some.injEq, exists_eq_left', LiftsOnlySilent, complianceResult]
  by_cases hn : doc.binaryChecks.length = 0
  · simp [hn]
  · rw [effectiveScore_kept_iff (Nat.pos_of_ne_zero hn)]
    simp only [hn, Nat.pos_of_ne_zero hn, forall_const, false_or, ← or_iff_not_imp_left]

end Guarantee

/-! ## A failing static check that is lifted -/

section Example

def partiesDoc : ConstraintDoc :=
  { citationDoc with predicate := .vocabularyPresence .allOf ["owner", "auditor", "regulator"] }

/-- A draft that names one of three required parties scores 1/3, below the Hard
threshold. The predicate asks no judge. The document has two checks, so the score is
lifted to (n − 1)/n + ε, and the constraint passes. -/
theorem partial_vocabulary_is_lifted :
    let results := (evalAll asciiExternals judgeJson judgeSettings [partiesDoc] "owner signs"
      (fun _ => judgeWorld) newEvalCache).1.1
    results.map (fun r => (r.score, r.hardPassesScaled 1)) = [(1 / 2 + 1 / 2 ^ 52, true)] ∧
      (docEvaluation asciiExternals judgeJson judgeSettings "owner signs" partiesDoc judgeWorld
        newEvalCache).score = 1 / 3 ∧
      ¬LiftsOnlySilent asciiExternals judgeJson judgeSettings "owner signs" partiesDoc judgeWorld
        newEvalCache (1 / 2 + 1 / 2 ^ 52) := by
  have hscore : (docEvaluation asciiExternals judgeJson judgeSettings "owner signs" partiesDoc
      judgeWorld newEvalCache).score = 1 / 3 := by
    decide +kernel
  have hmarkers : hasCheckMarkers (docEvaluation asciiExternals judgeJson judgeSettings
      "owner signs" partiesDoc judgeWorld newEvalCache).raw = false := by
    decide +kernel
  refine ⟨by decide +kernel, hscore, ?_⟩
  intro lifts
  have noSilence : ¬JudgeSilent asciiExternals judgeJson judgeSettings "owner signs" partiesDoc
      judgeWorld newEvalCache := by
    intro silent
    obtain ⟨_, leaf, asked, _⟩ := silent
    simp [partiesDoc, askedLeaves, ConstraintPredicate.isAsyncLeaf] at asked
  have reported := lifts (by decide) noSilence
  simp only [hmarkers, Bool.false_eq_true, ↓reduceIte, hscore] at reported
  norm_num at reported

end Example

end ControlPlane.Guarantees.SilentJudge
