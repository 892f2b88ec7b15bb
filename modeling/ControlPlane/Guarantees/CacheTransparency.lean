import ControlPlane.Source.Verification.Corpus

/-!
# Transparency of the evaluation cache

A cache hit should be an optimisation: evaluating the same text again must give
the scores and hard verdicts of the first evaluation. The cache stores the raw
predicate score, while the reported score is recomputed after the lookup from
the judge's reason and check verdicts, which a hit no longer has. This module
states exactly which first evaluations survive that loss.
-/
namespace ControlPlane.Guarantees.CacheTransparency

open Source.Constraints Source.Verification

/-! ## What a hit reports -/

/-- The score reported from a stored predicate score alone. -/
def hitScore (nChecks : Nat) (score : ℚ) : ℚ :=
  if 0 < score then max score (((nChecks : ℚ) - 1) / nChecks + f64Epsilon) else score

/-- The fraction of checks that the raw response marks PRESENT. -/
def presentFraction (nChecks : Nat) (raw : Option String) : ℚ :=
  (((checkVerdictsOf raw nChecks).filter id).length : ℚ) / nChecks

/-- An evaluation whose reported score can be recovered from its predicate score. -/
def ScoreStable (nChecks : Nat) (e : Evaluation) : Prop :=
  nChecks = 0 ∨
    (hasCheckMarkers e.raw = false ∧
      (e.reason = none ∨ e.score ≤ 0 ∨ ((nChecks : ℚ) - 1) / nChecks + f64Epsilon ≤ e.score)) ∨
    (hasCheckMarkers e.raw = true ∧ presentFraction nChecks e.raw = hitScore nChecks e.score)

theorem effectiveScore_hit (nChecks : Nat) (score : ℚ) :
    effectiveScore nChecks ⟨score, none, none⟩ =
      if nChecks = 0 then score else hitScore nChecks score := by
  unfold effectiveScore hitScore
  simp only [checkVerdictsOf, hasCheckMarkers, Option.any_none, Bool.false_eq_true, ↓reduceIte,
    scoreFromVerdicts, or_true, true_and]
  by_cases hn : nChecks = 0
  · simp [hn]
  · simp [hn, Nat.pos_of_ne_zero hn]

theorem effectiveScore_no_markers {nChecks : Nat} {e : Evaluation} (hn : 0 < nChecks)
    (h : hasCheckMarkers e.raw = false) :
    effectiveScore nChecks e = if e.reason = none then hitScore nChecks e.score else e.score := by
  have hnil := (checkVerdictsOf_eq_nil_iff e.raw hn).mpr h
  unfold effectiveScore hitScore
  simp only [hnil, scoreFromVerdicts, or_true, ↓reduceIte, true_and, hn]
  by_cases hr : e.reason = none
  · simp [hr]
  · simp [hr]

theorem effectiveScore_markers {nChecks : Nat} {e : Evaluation} (hn : 0 < nChecks)
    (h : hasCheckMarkers e.raw = true) :
    effectiveScore nChecks e = presentFraction nChecks e.raw := by
  have hne : checkVerdictsOf e.raw nChecks ≠ [] := by
    rw [ne_eq, checkVerdictsOf_eq_nil_iff e.raw hn, h]
    simp
  unfold effectiveScore presentFraction
  simp [hne, scoreFromVerdicts, Nat.ne_of_gt hn]

theorem hitScore_eq_self_iff (nChecks : Nat) (score : ℚ) :
    hitScore nChecks score = score ↔
      score ≤ 0 ∨ ((nChecks : ℚ) - 1) / nChecks + f64Epsilon ≤ score := by
  unfold hitScore
  split
  next hpos => simp [hpos]
  next hneg => simp [not_lt.mp hneg]

/-- The reported score survives a cache round trip exactly for stable evaluations. -/
theorem effectiveScore_roundtrip_iff (nChecks : Nat) (e : Evaluation) :
    effectiveScore nChecks e = effectiveScore nChecks ⟨e.score, none, none⟩ ↔
      ScoreStable nChecks e := by
  rw [effectiveScore_hit]
  by_cases hn : nChecks = 0
  · subst hn
    simp [ScoreStable, effectiveScore, scoreFromVerdicts]
  have hpos : 0 < nChecks := Nat.pos_of_ne_zero hn
  simp only [ScoreStable, hn, ↓reduceIte, false_or]
  cases hm : hasCheckMarkers e.raw with
  | true => simp [effectiveScore_markers hpos hm]
  | false =>
      rw [effectiveScore_no_markers hpos hm]
      simp only [true_and, Bool.false_eq_true, false_and, or_false]
      by_cases hr : e.reason = none
      · simp [hr]
      · simp only [hr, ↓reduceIte, false_or]
        rw [eq_comm]
        exact hitScore_eq_self_iff nChecks e.score

/-! ## Two evaluations of one text -/

/-- Wherever the second evaluation is a cache hit, it reports the score and every
scaled hard verdict of the first. -/
def CacheTransparent (first second : List (ComplianceResult × Bool)) : Prop :=
  ∀ (j : Nat) (a b : ComplianceResult × Bool), first[j]? = some a → second[j]? = some b →
    b.2 = true →
    a.1.score = b.1.score ∧ ∀ scale, a.1.hardPassesScaled scale = b.1.hardPassesScaled scale

/-- The documents the first evaluation really evaluates: no stored text is similar
enough and no earlier document has the id. Each of them must be stable. -/
def FreshStable (x : Externals) (json : ScoreJson) (settings : CorpusSettings) (output : String)
    (worlds : Nat → Evaluator) (docs : List ConstraintDoc) (i : Nat) (cache : EvalCache) : Prop :=
  ∀ (before : List ConstraintDoc) (doc : ConstraintDoc) (after : List ConstraintDoc),
    docs = before ++ doc :: after → doc.id ∉ before.map (·.id) →
    cacheLookup x cache doc.id output = none →
    ScoreStable doc.binaryChecks.length
      (evalDoc x json settings output doc (worlds (i + before.length)))

theorem cacheTransparent_cons (a b : ComplianceResult × Bool)
    (as bs : List (ComplianceResult × Bool)) :
    CacheTransparent (a :: as) (b :: bs) ↔
      (b.2 = true → a.1.score = b.1.score ∧
        ∀ scale, a.1.hardPassesScaled scale = b.1.hardPassesScaled scale) ∧
      CacheTransparent as bs := by
  constructor
  · intro h
    exact ⟨h 0 a b (by simp) (by simp), fun j c d hc hd => h (j + 1) c d (by simpa) (by simpa)⟩
  · rintro ⟨hhead, htail⟩ j c d hc hd
    cases j with
    | zero =>
        simp only [List.getElem?_cons_zero, Option.some.injEq] at hc hd
        subst hc hd
        exact hhead
    | succ j => exact htail j c d (by simpa using hc) (by simpa using hd)

theorem freshStable_cons {x : Externals} {output : String} (h : tokenize x output ≠ ∅)
    (json : ScoreJson) (settings : CorpusSettings) (worlds : Nat → Evaluator)
    (doc : ConstraintDoc) (docs : List ConstraintDoc) (i : Nat) (cache : EvalCache) :
    FreshStable x json settings output worlds (doc :: docs) i cache ↔
      (cacheLookup x cache doc.id output = none →
        ScoreStable doc.binaryChecks.length
          (evalDoc x json settings output doc (worlds i))) ∧
      FreshStable x json settings output worlds docs (i + 1)
        (evalCached x json settings output doc (worlds i) cache).2 := by
  constructor
  · intro stable
    refine ⟨fun miss => by simpa using stable [] doc docs rfl (by simp) miss, ?_⟩
    intro before later after hsplit hid miss
    by_cases hsame : later.id = doc.id
    · -- the document just evaluated is found, so `later` would be a hit
      rw [hsame, evalCached_self json settings h] at miss
      cases hl : cacheLookup x cache doc.id output <;> simp [hl] at miss
    · rw [evalCached_other json settings doc (worlds i) cache hsame] at miss
      have := stable (doc :: before) later after (by simp [hsplit])
        (by simp [hsame] at hid ⊢; exact hid) miss
      rwa [List.length_cons, show i + (before.length + 1) = i + 1 + before.length by omega] at this
  · rintro ⟨hhead, htail⟩ before later after hsplit hid miss
    cases before with
    | nil =>
        simp only [List.nil_append, List.cons.injEq] at hsplit
        obtain ⟨rfl, rfl⟩ := hsplit
        simpa using hhead miss
    | cons first before =>
        simp only [List.cons_append, List.cons.injEq] at hsplit
        obtain ⟨rfl, hsplit⟩ := hsplit
        simp only [List.map_cons, List.mem_cons, not_or] at hid
        have := htail before later after hsplit hid.2
          (by rw [evalCached_other json settings doc (worlds i) cache hid.1]; exact miss)
        rwa [List.length_cons, show i + (before.length + 1) = i + 1 + before.length by omega]

/-- One document: what its future reports against what a later hit reports. -/
theorem evalCached_same_iff {x : Externals} {output : String} (h : tokenize x output ≠ ∅)
    (json : ScoreJson) (settings : CorpusSettings) (doc : ConstraintDoc) (world : Evaluator)
    (cache : EvalCache) {score : ℚ}
    (later : cacheLookup x (evalCached x json settings output doc world cache).2 doc.id output =
      some score) :
    ((evalCached x json settings output doc world cache).1.1.score =
        (complianceResult doc ⟨score, none, none⟩).score ∧
      ∀ scale, (evalCached x json settings output doc world cache).1.1.hardPassesScaled scale =
        (complianceResult doc ⟨score, none, none⟩).hardPassesScaled scale) ↔
      (cacheLookup x cache doc.id output = none →
        ScoreStable doc.binaryChecks.length (evalDoc x json settings output doc world)) := by
  rw [evalCached_self json settings h] at later
  cases hl : cacheLookup x cache doc.id output with
  | some stored =>
      simp only [hl, Option.some_or, Option.some.injEq] at later
      subst later
      simp [evalCached, hl]
  | none =>
      simp only [hl, Option.none_or, Option.some.injEq] at later
      subst later
      simp only [evalCached, hl, forall_const]
      rw [← effectiveScore_roundtrip_iff]
      constructor
      · intro same
        exact same.1
      · intro same
        exact ⟨same, ComplianceResult.hardPassesScaled_congr same rfl⟩

theorem evalDocs_transparent_iff {x : Externals} {output : String} (h : tokenize x output ≠ ∅)
    (json : ScoreJson) (settings : CorpusSettings) (worlds : Nat → Evaluator)
    (docs : List ConstraintDoc) (i : Nat) (cache : EvalCache) :
    CacheTransparent (evalDocs x json settings output worlds docs i cache).1
        (docs.map fun doc => (complianceResult doc
          ⟨(cacheLookup x (evalDocs x json settings output worlds docs i cache).2
            doc.id output).getD 0, none, none⟩, true)) ↔
      FreshStable x json settings output worlds docs i cache := by
  induction docs generalizing i cache with
  | nil => simp [CacheTransparent, FreshStable, evalDocs]
  | cons doc docs ih =>
      have hself := evalCached_self json settings h doc (worlds i) cache
      obtain ⟨score, hscore⟩ : ∃ score, cacheLookup x
          (evalCached x json settings output doc (worlds i) cache).2 doc.id output =
            some score := by
        rw [hself]
        cases cacheLookup x cache doc.id output <;> simp
      have hfinal := evalDocs_keeps_hit json settings worlds h docs (i + 1) hscore
      rw [freshStable_cons h, ← ih (i + 1), List.map_cons]
      simp only [evalDocs]
      rw [cacheTransparent_cons, hfinal]
      simp only [forall_const, Option.getD_some]
      rw [evalCached_same_iff h json settings doc (worlds i) cache hscore]

/-- A text without tokens never hits: all flags of an evaluation are false. -/
theorem evalDocs_no_tokens {x : Externals} {output : String} (h : tokenize x output = ∅)
    (json : ScoreJson) (settings : CorpusSettings) (worlds : Nat → Evaluator)
    (docs : List ConstraintDoc) (i : Nat) (cache : EvalCache) :
    ∀ entry ∈ (evalDocs x json settings output worlds docs i cache).1, entry.2 = false := by
  induction docs generalizing i cache with
  | nil => simp [evalDocs]
  | cons doc docs ih =>
      simp only [evalDocs, List.forall_mem_cons]
      refine ⟨?_, ih (i + 1) _⟩
      simp [evalCached, cacheLookup_no_tokens h]

/-- With at least one token, the second evaluation of a text is served from the
cache throughout. -/
theorem second_evaluation_hits {x : Externals} {output : String} (h : tokenize x output ≠ ∅)
    (json : ScoreJson) (settings : CorpusSettings) (worlds worlds' : Nat → Evaluator)
    (docs : List ConstraintDoc) (cache : EvalCache) :
    evalDocs x json settings output worlds' docs 0
        (evalDocs x json settings output worlds docs 0 cache).2 =
      (docs.map fun doc => (complianceResult doc
          ⟨(cacheLookup x (evalDocs x json settings output worlds docs 0 cache).2
            doc.id output).getD 0, none, none⟩, true),
        (evalDocs x json settings output worlds docs 0 cache).2) :=
  evalDocs_all_hits json settings worlds' docs 0 _
    (fun _ member => evalDocs_hits json settings worlds h docs 0 cache member)

section Example

def judgeResponse : String := "\x7b\"score\": 0.2, \"reason\": \"no citation\"\x7d"

def judgeJson : ScoreJson :=
  { fromStr := fun text => if text = judgeResponse.toList then some (1 / 5, "no citation") else none
    valueLength := fun _ => none }

def judgeWorld : Evaluator :=
  { execute := fun _ _ _ => ⟨some judgeResponse, false⟩
    testRunner := fun _ _ _ _ _ => none }

def citationDoc : ConstraintDoc :=
  { id := "C-CITE"
    sourceFile := "C-CITE.yaml"
    description := "cite sources"
    severity := .hard (1 / 2)
    predicate := .composite .and [.llmJudge "cites its sources"]
    remediationHint := none
    domains := []
    mandatoryForTags := []
    relatedTo := []
    binaryChecks := ["names a source", "gives a page"]
    version := 1
    repairProvenance := none
    passCriteria := none }

def judgeSettings : CorpusSettings := ⟨"", "evaluate", 1 / 10, 1024, 1, 45 / 100⟩

end Example

end ControlPlane.Guarantees.CacheTransparency
