import ControlPlane.Source.Verification.Predicate

/-!
# Composite semantics of constraint evaluation

The plain reading of a predicate tree is independent of evaluation order: `And`
is the minimum of its children, `Or` the maximum, `Not` the complement of its
first child, and every async leaf counts with its own score. The evaluator
departs from it in one place: a composite child of an `And` node is handed to
`eval_sync`, where async leaves are pass-throughs. This module proves that this
is the only departure and states exactly when it is visible.
-/
namespace ControlPlane.Guarantees.CompositeSemantics

open Source.Constraints Source.Verification Lib.ScanFold

/-! ## Reference semantics -/

mutual
/-- The documented value of a tree under given leaf scores. -/
def refScore (x : Externals) (output : String) : ConstraintPredicate → Answers → ℚ
  | .composite .and children, answers => (refScores x output children answers 0).foldl min 1
  | .composite .or children, answers => (refScores x output children answers 0).foldl max 0
  | .composite .not children, answers =>
      1 - (refScores x output children answers 0).head?.getD 0
  | p, answers => if p.isAsyncLeaf then (answers [] p).score else evalSync x output p
def refScores (x : Externals) (output : String) :
    List ConstraintPredicate → Answers → Nat → List ℚ
  | [], _, _ => []
  | child :: rest, answers, i =>
      refScore x output child (answers.child i) :: refScores x output rest answers (i + 1)
end

/-- Every async leaf is scored in the unit interval. -/
def UnitAnswers (answers : Answers) : Prop :=
  ∀ path leaf, UnitScore (answers path leaf).score

/-- The values `eval_sync` gives to async leaves. -/
def passThrough : Answers := fun _ leaf =>
  match leaf with
  | .oracleExecution .. => ⟨0, none, none⟩
  | _ => ⟨1, none, none⟩

mutual
/-- Places of the tree that the evaluator hands to `eval_sync`: everything inside
a composite child of an `And` node that it reaches itself. -/
def bypassed : ConstraintPredicate → List Nat → Bool
  | .composite .and children, i :: _ => ((children[i]?).map (·.isComposite)).getD false
  | .composite .or children, i :: path => bypassedAt children i path
  | .composite .not children, i :: path => bypassedAt children i path
  | _, _ => false
def bypassedAt : List ConstraintPredicate → Nat → List Nat → Bool
  | [], _, _ => false
  | child :: _, 0, path => bypassed child path
  | _ :: rest, i + 1, path => bypassedAt rest i path
end

/-- The answers the evaluator effectively uses on tree `p`. -/
def effective (p : ConstraintPredicate) (answers : Answers) : Answers := fun path leaf =>
  if bypassed p path then passThrough path leaf else answers path leaf

/-- The value of the tree does not depend on the leaves that are bypassed. -/
def BypassIrrelevant (x : Externals) (output : String) (p : ConstraintPredicate) : Prop :=
  ∀ answers answers' : Answers, UnitAnswers answers → UnitAnswers answers' →
    (∀ path leaf, bypassed p path = false →
      (answers path leaf).score = (answers' path leaf).score) →
    refScore x output p answers = refScore x output p answers'

/-! ## The reference value as a function of the leaf scores -/

theorem passThrough_child (i : Nat) : passThrough.child i = passThrough := rfl

theorem passThrough_unit : UnitAnswers passThrough := by
  intro path leaf
  unfold passThrough
  split
  · exact unitScore_zero
  · exact unitScore_one

theorem effective_unit (p : ConstraintPredicate) {answers : Answers}
    (h : UnitAnswers answers) : UnitAnswers (effective p answers) := by
  intro path leaf
  unfold effective
  split
  · exact passThrough_unit path leaf
  · exact h path leaf

mutual
/-- Only the scores of the answers matter, not reasons or raw texts. -/
theorem refScore_congr (x : Externals) (output : String) :
    (p : ConstraintPredicate) → (answers answers' : Answers) →
    (∀ path leaf, (answers path leaf).score = (answers' path leaf).score) →
    refScore x output p answers = refScore x output p answers'
  | .composite .and children, answers, answers', h => by
      simp only [refScore, refScores_congr x output children answers answers' 0 h]
  | .composite .or children, answers, answers', h => by
      simp only [refScore, refScores_congr x output children answers answers' 0 h]
  | .composite .not children, answers, answers', h => by
      simp only [refScore, refScores_congr x output children answers answers' 0 h]
  | .llmJudge _, _, _, h => h [] _
  | .oracleExecution .., _, _, h => h [] _
  | .semanticPresence .., _, _, h => h [] _
  | .semanticOrdering .., _, _, h => h [] _
  | .semanticExclusion .., _, _, h => h [] _
  | .vocabularyPresence .., _, _, _ => rfl
  | .negativeKeyword .., _, _, _ => rfl
  | .regexMatch .., _, _, _ => rfl
  | .numericThreshold .., _, _, _ => rfl
  | .jsonSchema .., _, _, _ => rfl
  | .lengthRange .., _, _, _ => rfl
theorem refScores_congr (x : Externals) (output : String) :
    (children : List ConstraintPredicate) → (answers answers' : Answers) → (i : Nat) →
    (∀ path leaf, (answers path leaf).score = (answers' path leaf).score) →
    refScores x output children answers i = refScores x output children answers' i
  | [], _, _, _, _ => rfl
  | child :: rest, answers, answers', i, h => by
      simp only [refScores,
        refScore_congr x output child (answers.child i) (answers'.child i)
          (fun path leaf => h (i :: path) leaf),
        refScores_congr x output rest answers answers' (i + 1) h]
end

mutual
theorem refScore_unit (x : Externals) (output : String) :
    (p : ConstraintPredicate) → (answers : Answers) → UnitAnswers answers →
    UnitScore (refScore x output p answers)
  | .composite .and children, answers, h =>
      unitScore_foldl_min _ (refScores_unit x output children answers 0 h)
  | .composite .or children, answers, h =>
      unitScore_foldl_max _ (refScores_unit x output children answers 0 h)
  | .composite .not children, answers, h =>
      (unitScore_head _ (refScores_unit x output children answers 0 h)).complement
  | .llmJudge _, _, h => h [] _
  | .oracleExecution .., _, h => h [] _
  | .semanticPresence .., _, h => h [] _
  | .semanticOrdering .., _, h => h [] _
  | .semanticExclusion .., _, h => h [] _
  | .vocabularyPresence .., _, _ => evalSync_unit x output _
  | .negativeKeyword .., _, _ => evalSync_unit x output _
  | .regexMatch .., _, _ => evalSync_unit x output _
  | .numericThreshold .., _, _ => evalSync_unit x output _
  | .jsonSchema .., _, _ => evalSync_unit x output _
  | .lengthRange .., _, _ => evalSync_unit x output _
theorem refScores_unit (x : Externals) (output : String) :
    (children : List ConstraintPredicate) → (answers : Answers) → (i : Nat) →
    UnitAnswers answers → ∀ s ∈ refScores x output children answers i, UnitScore s
  | [], _, _, _, s, hs => by simp [refScores] at hs
  | child :: rest, answers, i, h, s, hs => by
      simp only [refScores, List.mem_cons] at hs
      rcases hs with rfl | hs
      · exact refScore_unit x output child _ (fun path leaf => h (i :: path) leaf)
      · exact refScores_unit x output rest answers (i + 1) h s hs
end

mutual
/-- `eval_sync` is the reference semantics with every async leaf passed through. -/
theorem evalSync_eq_refScore (x : Externals) (output : String) :
    (p : ConstraintPredicate) → evalSync x output p = refScore x output p passThrough
  | .composite .and children => by
      simp only [evalSync, refScore, evalSyncAll_eq_refScores x output children 0]
  | .composite .or children => by
      simp only [evalSync, refScore, evalSyncAll_eq_refScores x output children 0]
  | .composite .not children => by
      simp only [evalSync, refScore, evalSyncAll_eq_refScores x output children 0]
  | .llmJudge _ => rfl
  | .oracleExecution .. => rfl
  | .semanticPresence .. => rfl
  | .semanticOrdering .. => rfl
  | .semanticExclusion .. => rfl
  | .vocabularyPresence .. => rfl
  | .negativeKeyword .. => rfl
  | .regexMatch .. => rfl
  | .numericThreshold .. => rfl
  | .jsonSchema .. => rfl
  | .lengthRange .. => rfl
theorem evalSyncAll_eq_refScores (x : Externals) (output : String) :
    (children : List ConstraintPredicate) → (i : Nat) →
    evalSyncAll x output children = refScores x output children passThrough i
  | [], _ => rfl
  | child :: rest, i => by
      simp only [evalSyncAll, refScores, passThrough_child, evalSync_eq_refScore x output child,
        evalSyncAll_eq_refScores x output rest (i + 1)]
end

/-! ## The `And` arm

Its two loops see the children in two groups. Each loop is a running minimum
with an exit at zero, so together they compute the minimum over both groups. -/

/-- Scores the first loop looks at. -/
def staticScores (x : Externals) (output : String) (children : List ConstraintPredicate) :
    List ℚ :=
  (children.filter (fun c => !c.isAsyncLeaf)).map (evalSync x output)

/-- Scores the second loop looks at. -/
def deferredScores : List ConstraintPredicate → Answers → Nat → List ℚ
  | [], _, _ => []
  | child :: rest, answers, i =>
      if child.isAsyncLeaf then
        (answers [i] child).score :: deferredScores rest answers (i + 1)
      else deferredScores rest answers (i + 1)

/-- What an `And` node sees of each child. -/
def andScores (x : Externals) (output : String) :
    List ConstraintPredicate → Answers → Nat → List ℚ
  | [], _, _ => []
  | child :: rest, answers, i =>
      (if child.isAsyncLeaf then (answers [i] child).score else evalSync x output child) ::
        andScores x output rest answers (i + 1)

theorem andStatic_getD (x : Externals) (output : String) (children : List ConstraintPredicate)
    (m : ℚ) :
    (andStatic x output children m).getD 0 = scanMin 0 m (staticScores x output children) := by
  induction children generalizing m with
  | nil => rfl
  | cons child rest ih =>
      by_cases h : child.isAsyncLeaf = true
      · simpa [andStatic, staticScores, h] using ih m
      · simp only [andStatic, h, staticScores, scanMin, List.filter_cons, List.map_cons,
          Bool.false_eq_true, ↓reduceIte, Bool.not_false]
        generalize (if evalSync x output child < m then evalSync x output child else m) = next
        split
        · rfl
        · exact ih next

theorem andStatic_pos {x : Externals} {output : String} {children : List ConstraintPredicate}
    {m v : ℚ} (hm : 0 < m) (h : andStatic x output children m = some v) : 0 < v := by
  induction children generalizing m with
  | nil =>
      simp only [andStatic, Option.some.injEq] at h
      exact h ▸ hm
  | cons child rest ih =>
      simp only [andStatic] at h
      split at h
      · exact ih hm h
      · generalize (if evalSync x output child < m then evalSync x output child else m) = next at h
        split at h
        · simp at h
        next hnext => exact ih (not_le.mp hnext) h

theorem andDeferred_score (x : Externals) (output : String)
    (children : List ConstraintPredicate) (answers : Answers) (i : Nat) (m : ℚ)
    (r : Option String) :
    (andDeferred x output children answers i m r).score =
      scanMin 0 m (deferredScores children answers i) := by
  induction children generalizing i m r with
  | nil => simp [andDeferred, deferredScores, scanMin]
  | cons child rest ih =>
      by_cases h : child.isAsyncLeaf = true
      · simp only [andDeferred, deferredScores, h, ↓reduceIte, scanMin,
          evalPredicateAsync_asyncLeaf x output child _ h, Answers.child]
        generalize (if (answers [i] child).score < m then (answers [i] child).score else m) = next
        split
        · rfl
        · exact ih _ next _
      · simp only [andDeferred, deferredScores, h, ↓reduceIte, Bool.false_eq_true]
        exact ih _ _ _

/-- A bound holds for both groups exactly when it holds for every child. -/
theorem andScores_forall (x : Externals) (output : String) (bound : ℚ → Prop)
    (children : List ConstraintPredicate) (answers : Answers) (i : Nat) :
    ((∀ s ∈ staticScores x output children, bound s) ∧
      ∀ s ∈ deferredScores children answers i, bound s) ↔
      ∀ s ∈ andScores x output children answers i, bound s := by
  induction children generalizing i with
  | nil => simp [staticScores, deferredScores, andScores]
  | cons child rest ih =>
      have hrest := ih (i + 1)
      cases h : child.isAsyncLeaf with
      | true =>
          simp only [staticScores, deferredScores, andScores, h, List.filter_cons,
            Bool.not_true, Bool.false_eq_true, ↓reduceIte, List.forall_mem_cons] at hrest ⊢
          rw [← hrest]
          tauto
      | false =>
          simp only [staticScores, deferredScores, andScores, h, List.filter_cons,
            Bool.not_false, Bool.false_eq_true, ↓reduceIte, List.map_cons,
            List.forall_mem_cons] at hrest ⊢
          rw [← hrest]
          tauto

theorem andScores_unit (x : Externals) (output : String) (children : List ConstraintPredicate)
    (answers : Answers) (i : Nat) (h : UnitAnswers answers) :
    ∀ s ∈ andScores x output children answers i, UnitScore s := by
  induction children generalizing i with
  | nil => simp [andScores]
  | cons child rest ih =>
      simp only [andScores, List.forall_mem_cons]
      refine ⟨?_, ih (i + 1)⟩
      split
      · exact h _ _
      · exact evalSync_unit x output child

theorem foldl_min_groups (x : Externals) (output : String) (children : List ConstraintPredicate)
    (answers : Answers) (i : Nat) (m : ℚ) :
    (deferredScores children answers i).foldl min ((staticScores x output children).foldl min m) =
      (andScores x output children answers i).foldl min m := by
  apply eq_of_forall_le_iff
  intro c
  simp only [le_foldl_min_iff, and_assoc]
  rw [andScores_forall x output (fun s => c ≤ s) children answers i]

/-- Both loops of the `And` arm together are one minimum over the children. -/
theorem and_score (x : Externals) (output : String) (children : List ConstraintPredicate)
    (answers : Answers) (h : UnitAnswers answers) :
    (evalPredicateAsync x output (.composite .and children) answers).score =
      (andScores x output children answers 0).foldl min 1 := by
  have nonneg := (andScores_forall x output (fun s => 0 ≤ s) children answers 0).mpr
    (fun s hs => (andScores_unit x output children answers 0 h s hs).1)
  have static := andStatic_getD x output children 1
  rw [scanMin_eq_foldl 0 1 _ (by norm_num) nonneg.1] at static
  rw [← foldl_min_groups, ← static]
  cases hs : andStatic x output children 1 with
  | none =>
      simp only [evalPredicateAsync, hs, Option.getD_none]
      refine le_antisymm ?_ (foldl_min_le_start _ _)
      rw [le_foldl_min_iff]
      exact ⟨le_rfl, nonneg.2⟩
  | some v =>
      have hv : 0 < v := andStatic_pos (by norm_num) hs
      simp only [evalPredicateAsync, hs, Option.getD_some, andDeferred_score]
      exact scanMin_eq_foldl 0 v _ hv.le nonneg.2

/-- An `And` node sees the reference scores of its children under the answers it
effectively uses. `i` is the index at which the suffix `children` starts. -/
theorem andScores_eq_refScores (x : Externals) (output : String)
    (children : List ConstraintPredicate) (answers used : Answers) (i : Nat)
    (h : ∀ (j : Nat) (child : ConstraintPredicate), children[j]? = some child →
      ∀ path leaf, used ((i + j) :: path) leaf =
        if child.isComposite then passThrough path leaf else answers ((i + j) :: path) leaf) :
    andScores x output children answers i = refScores x output children used i := by
  induction children generalizing i with
  | nil => rfl
  | cons child rest ih =>
      have hrest : andScores x output rest answers (i + 1) =
          refScores x output rest used (i + 1) := by
        apply ih (i + 1)
        intro j c hc path leaf
        have := h (j + 1) c (by simpa using hc) path leaf
        rwa [show i + (j + 1) = i + 1 + j by omega] at this
      have hchild := h 0 child (by simp)
      simp only [Nat.add_zero] at hchild
      simp only [andScores, refScores, hrest, List.cons.injEq, and_true]
      cases child with
      | composite op grandchildren =>
          have hused : used.child i = passThrough := by
            funext path leaf
            simpa [ConstraintPredicate.isComposite, Answers.child] using hchild path leaf
          rw [hused]
          exact evalSync_eq_refScore x output _
      | llmJudge | oracleExecution | semanticPresence | semanticOrdering | semanticExclusion =>
          simp only [ConstraintPredicate.isComposite, Bool.false_eq_true, ↓reduceIte] at hchild
          simp only [ConstraintPredicate.isAsyncLeaf, ↓reduceIte, refScore, Answers.child, hchild]
      | vocabularyPresence | negativeKeyword | regexMatch | numericThreshold | jsonSchema
      | lengthRange => rfl

/-! ## The whole tree -/

/-- Scores of the children under the evaluator, as the `Or` loop meets them. -/
def asyncScores (x : Externals) (output : String) :
    List ConstraintPredicate → Answers → Nat → List ℚ
  | [], _, _ => []
  | child :: rest, answers, i =>
      (evalPredicateAsync x output child (answers.child i)).score ::
        asyncScores x output rest answers (i + 1)

theorem orLoop_score (x : Externals) (output : String) (children : List ConstraintPredicate)
    (answers : Answers) (i : Nat) (m : ℚ) :
    (orLoop x output children answers i m).score =
      scanMax 1 m (asyncScores x output children answers i) := by
  induction children generalizing i m with
  | nil => simp [orLoop, asyncScores, scanMax]
  | cons child rest ih =>
      simp only [orLoop, asyncScores, scanMax]
      split
      · rfl
      · exact ih _ _

mutual
/-- The evaluator computes the reference value under its effective answers. -/
theorem evalPredicateAsync_score (x : Externals) (output : String) :
    (p : ConstraintPredicate) → (answers : Answers) → UnitAnswers answers →
    (evalPredicateAsync x output p answers).score = refScore x output p (effective p answers)
  | .composite .and children, answers, h => by
      rw [and_score x output children answers h, refScore]
      congr 1
      apply andScores_eq_refScores
      intro j child hchild path leaf
      simp [effective, bypassed, hchild, passThrough]
  | .composite .or children, answers, h => by
      have hscores := asyncScores_eq_refScores x output children answers 0 h
        (effective (.composite .or children) answers)
        (fun j path leaf => by simp [effective, bypassed, passThrough])
      have hunit := refScores_unit x output children _ 0
        (effective_unit (.composite .or children) h)
      rw [evalPredicateAsync, orLoop_score, refScore, hscores]
      exact scanMax_eq_foldl 1 0 _ (by norm_num) (fun s hs => (hunit s hs).2)
  | .composite .not [], _, _ => rfl
  | .composite .not (child :: rest), answers, h => by
      have hchild := evalPredicateAsync_score x output child (answers.child 0)
        (fun path leaf => h (0 :: path) leaf)
      have hused : (effective (.composite .not (child :: rest)) answers).child 0 =
          effective child (answers.child 0) := by
        funext path leaf
        simp only [effective, bypassed, bypassedAt, Answers.child]
        rfl
      simp only [evalPredicateAsync, refScore, refScores, List.head?_cons, Option.getD_some,
        hchild, hused]
  | .llmJudge _, _, _ => rfl
  | .oracleExecution .., _, _ => rfl
  | .semanticPresence .., _, _ => rfl
  | .semanticOrdering .., _, _ => rfl
  | .semanticExclusion .., _, _ => rfl
  | .vocabularyPresence .., _, _ => rfl
  | .negativeKeyword .., _, _ => rfl
  | .regexMatch .., _, _ => rfl
  | .numericThreshold .., _, _ => rfl
  | .jsonSchema .., _, _ => rfl
  | .lengthRange .., _, _ => rfl
theorem asyncScores_eq_refScores (x : Externals) (output : String) :
    (children : List ConstraintPredicate) → (answers : Answers) → (i : Nat) →
    UnitAnswers answers → (used : Answers) →
    (∀ j path leaf, used ((i + j) :: path) leaf =
      if bypassedAt children j path then passThrough path leaf
      else answers ((i + j) :: path) leaf) →
    asyncScores x output children answers i = refScores x output children used i
  | [], _, _, _, _, _ => rfl
  | child :: rest, answers, i, h, used, hused => by
      have hchild : used.child i = effective child (answers.child i) := by
        funext path leaf
        simpa [bypassedAt, effective, Answers.child] using hused 0 path leaf
      have hrest := asyncScores_eq_refScores x output rest answers (i + 1) h used
        (fun j path leaf => by
          have := hused (j + 1) path leaf
          rwa [show i + (j + 1) = i + 1 + j by omega] at this)
      have hscore := evalPredicateAsync_score x output child (answers.child i)
        (fun path leaf => h (i :: path) leaf)
      simp only [asyncScores, refScores, hscore, hchild, hrest]
end

/-- For every tree and every output: the evaluator returns the reference value
under all assignments of unit scores to the async leaves exactly when that value
does not depend on the async leaves inside a composite child of an `And` node
which the evaluator reaches. -/
theorem evalPredicateAsync_eq_refScore_iff (x : Externals) (output : String)
    (p : ConstraintPredicate) :
    (∀ answers : Answers, UnitAnswers answers →
      (evalPredicateAsync x output p answers).score = refScore x output p answers) ↔
      BypassIrrelevant x output p := by
  constructor
  · intro agrees answers answers' h h' same
    have heff : refScore x output p (effective p answers) =
        refScore x output p (effective p answers') := by
      apply refScore_congr
      intro path leaf
      unfold effective
      cases hb : bypassed p path with
      | true => rfl
      | false => simpa using same path leaf hb
    calc refScore x output p answers
        = (evalPredicateAsync x output p answers).score := (agrees answers h).symm
      _ = refScore x output p (effective p answers) :=
          evalPredicateAsync_score x output p answers h
      _ = refScore x output p (effective p answers') := heff
      _ = (evalPredicateAsync x output p answers').score :=
          (evalPredicateAsync_score x output p answers' h').symm
      _ = refScore x output p answers' := agrees answers' h'
  · intro irrelevant answers h
    rw [evalPredicateAsync_score x output p answers h]
    apply irrelevant _ _ (effective_unit p h) h
    intro path leaf hb
    simp [effective, hb]

/-- A judge that finds a violation, nested one level deeper than the evaluator
looks: the tree is worth 0 and is scored 1. -/
theorem nested_judge_is_passed_through :
    let p : ConstraintPredicate := .composite .and [.composite .and [.llmJudge "cites a source"]]
    let answers : Answers := fun _ _ => ⟨0, some "no citation", none⟩
    UnitAnswers answers ∧ (evalPredicateAsync asciiExternals "draft" p answers).score = 1 ∧
      refScore asciiExternals "draft" p answers = 0 := by
  refine ⟨fun _ _ => unitScore_zero, ?_, ?_⟩
  · decide +kernel
  · decide +kernel

end ControlPlane.Guarantees.CompositeSemantics
