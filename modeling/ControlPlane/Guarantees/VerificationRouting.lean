import ControlPlane.Lib.Sequences
import ControlPlane.Source.Verification.Phase

/-!
# No silent verification failure

Repair and retry are driven by the violation lists alone, so a proposal that is
dropped must say why. For the single-judge phase this holds for every input. The
panel rewrites the score of a hard failure to just below the unscaled threshold
and then filters with the scaled one; this module proves when the rewritten
score is still visible to the filter, and that this is the only gap.
-/
namespace ControlPlane.Guarantees.VerificationRouting

open Source.Constraints Source.Verification Lib

/-! ## The aggregate score -/

/-- Soft weights are non-negative. -/
def NonNegativeWeights (results : List ComplianceResult) : Prop :=
  ∀ r ∈ results, ∀ w, softWeight r = some w → 0 ≤ w

theorem weighted_sums_bound (t : ℚ) (soft : List (ℚ × ℚ)) (acc : ℚ × ℚ)
    (hsoft : ∀ ws ∈ soft, 0 ≤ ws.1 ∧ t ≤ ws.2) (hacc : t * acc.2 ≤ acc.1 ∧ 0 ≤ acc.2) :
    let sums := soft.foldl (fun (acc : ℚ × ℚ) ws => (ws.1 * ws.2 + acc.1, acc.2 + ws.1)) acc
    t * sums.2 ≤ sums.1 ∧ 0 ≤ sums.2 := by
  induction soft generalizing acc with
  | nil => exact hacc
  | cons ws rest ih =>
      obtain ⟨hw, hs⟩ := hsoft ws (by simp)
      refine ih (ws.1 * ws.2 + acc.1, acc.2 + ws.1) (fun v hv => hsoft v (by simp [hv])) ⟨?_, ?_⟩
      · have := mul_le_mul_of_nonneg_left hs hw
        simp only
        linarith [hacc.1]
      · simp only
        linarith [hacc.2]

/-- A weighted mean of scores that all reach `t` reaches `t`. -/
theorem aggregateComplianceScore_ge {t : ℚ} (ht : t ≤ 1) (results : List ComplianceResult)
    (weights : NonNegativeWeights results) (scores : ∀ r ∈ results, t ≤ r.score) :
    t ≤ aggregateComplianceScore results := by
  unfold aggregateComplianceScore
  simp only
  split
  · exact ht
  have hsoft : ∀ ws ∈ results.filterMap fun r => (softWeight r).map fun w => (w, r.score),
      0 ≤ ws.1 ∧ t ≤ ws.2 := by
    intro ws hws
    obtain ⟨r, hr, hmap⟩ := List.mem_filterMap.mp hws
    cases hw : softWeight r with
    | none => simp [hw] at hmap
    | some w =>
        simp only [hw, Option.map_some, Option.some.injEq] at hmap
        subst hmap
        exact ⟨weights r hr w hw, scores r hr⟩
  obtain ⟨hsum, hweight⟩ := weighted_sums_bound t _ (0, 0) hsoft (by simp)
  split
  · exact ht
  next hne =>
    have hpos := lt_of_le_of_ne hweight (Ne.symm hne)
    exact (le_div_iff₀ hpos).mpr hsum

/-- A proposal that fails without the panel's hard flag has a violation. -/
theorem violations_nonempty {scale threshold : ℚ} (h1 : threshold ≤ 1) {e : Evaluated}
    (weights : NonNegativeWeights e.results) (hfail : passes scale threshold e = false)
    (hflag : e.hardFail = false) : violationsOf scale threshold e.results ≠ [] := by
  intro hnil
  have clean : ∀ r ∈ e.results, isViolated scale threshold r = false := by
    simpa [violationsOf] using hnil
  have hgate : e.results.all (·.hardPassesScaled scale) = true := by
    rw [List.all_eq_true]
    intro r hr
    have := clean r hr
    simp only [isViolated, Bool.or_eq_false_iff, Bool.not_eq_false'] at this
    exact this.1
  have hscores : ∀ r ∈ e.results, threshold ≤ r.score := by
    intro r hr
    have := clean r hr
    simp only [isViolated, Bool.or_eq_false_iff, decide_eq_false_iff_not, not_lt] at this
    exact this.2
  have hagg := aggregateComplianceScore_ge h1 e.results weights hscores
  simp [passes, overallScore, hflag, hgate, hagg] at hfail

/-- With a positive threshold, only an open hard gate passes. -/
theorem gate_of_passes {scale threshold : ℚ} (h0 : 0 < threshold) {e : Evaluated}
    (hpass : passes scale threshold e = true) :
    e.hardFail = false ∧ ∀ r ∈ e.results, r.hardPassesScaled scale = true := by
  unfold passes overallScore at hpass
  simp only [decide_eq_true_eq] at hpass
  split at hpass
  next hgate => simpa using hgate
  · exact absurd hpass (not_le.mpr h0)

/-! ## The property -/

/-- One constraint of one proposal: its final result and whether, as a Hard
constraint, it failed. -/
structure Judgement where
  result : ComplianceResult
  hardFailed : Bool

abbrev Judged := ProposalEvent × List Judgement

/-- A dropped proposal is reported with a reason, and with every hard failure. -/
structure Reported (judged : Judged) (failed : FailedProposal) : Prop where
  proposal : failed.proposal = judged.1
  results : failed.results = judged.2.map (·.result)
  reason : failed.violations ≠ []
  complete : ∀ j ∈ judged.2, j.hardFailed = true →
    ∃ v ∈ failed.violations, v.constraintId = j.result.constraintId

/-- Every proposal goes to exactly one list in input order, none with a hard
failure passes, and every dropped one is reported. -/
def NoSilentFailure (proposals : List ProposalEvent) (judged : List Judged)
    (out : VerificationOutput) : Prop :=
  judged.map Prod.fst = proposals ∧
  ∃ kept dropped, OrderedSplit judged kept dropped ∧
    out.passed.map (fun p => (p.proposal, p.results)) =
      kept.map (fun j => (j.1, j.2.map (·.result))) ∧
    (∀ j ∈ kept, ∀ c ∈ j.2, c.hardFailed = false) ∧
    List.Forall₂ Reported dropped out.failed

/-- Single judge: a Hard constraint fails when it misses its scaled threshold. -/
def judgedSingle (scale : ℚ) (evaluated : List Evaluated) : List Judged :=
  evaluated.map fun e => (e.proposal, e.results.map fun r => ⟨r, !r.hardPassesScaled scale⟩)

/-- Panel: a Hard constraint fails by the verdict Fail. -/
def judgedPanel (entries : List (ProposalEvent × List PanelResult)) : List Judged :=
  entries.map fun entry => (entry.1, entry.2.map fun p => ⟨p.result, p.isHardFail⟩)

/-- Routing is safe when the judged results are the routed ones, a hard failure
blocks, is visible to the violation filter, and a drop always leaves a reason. -/
theorem route_noSilentFailure {ι : Type} {scale threshold : ℚ} (entries : List ι)
    (eval : ι → Evaluated) (judge : ι → List Judgement)
    (results : ∀ e ∈ entries, (judge e).map (·.result) = (eval e).results)
    (blocks : ∀ e ∈ entries, passes scale threshold (eval e) = true →
      ∀ c ∈ judge e, c.hardFailed = false)
    (visible : ∀ e ∈ entries, ∀ c ∈ judge e, c.hardFailed = true →
      isViolated scale threshold c.result = true)
    (reason : ∀ e ∈ entries, passes scale threshold (eval e) = false →
      violationsOf scale threshold (eval e).results ≠ []) :
    NoSilentFailure (entries.map fun e => (eval e).proposal)
      (entries.map fun e => ((eval e).proposal, judge e))
      (route scale threshold (entries.map eval)) := by
  refine ⟨by simp, ?_⟩
  let tag := fun e : ι => (((eval e).proposal, judge e) : Judged)
  let test := fun e : ι => passes scale threshold (eval e)
  refine ⟨(entries.filter test).map tag, (entries.filter fun e => !test e).map tag,
    (orderedSplit_filter test entries).map tag, ?_, ?_, ?_⟩
  · rw [route_eq]
    simp only [List.filter_map, List.map_map]
    apply List.map_congr_left
    intro e he
    simp [tag, toPassed, results e (List.mem_filter.mp he).1]
  · intro j hj c hc
    obtain ⟨e, he, rfl⟩ := List.mem_map.mp hj
    obtain ⟨hmem, hpass⟩ := List.mem_filter.mp he
    exact blocks e hmem hpass c hc
  · rw [route_eq]
    simp only [List.filter_map, List.map_map, List.forall₂_map_left_iff,
      List.forall₂_map_right_iff]
    refine List.forall₂_same.mpr ?_
    intro e he
    obtain ⟨hmem, hdrop⟩ := List.mem_filter.mp he
    refine ⟨rfl, (results e hmem).symm, reason e hmem (by simpa using hdrop), ?_⟩
    intro c hc hfailed
    have hresult : c.result ∈ (eval e).results := by
      rw [← results e hmem]
      exact List.mem_map_of_mem hc
    exact ⟨violationOf c.result, List.mem_map_of_mem
      (List.mem_filter.mpr ⟨hresult, visible e hmem c hc hfailed⟩), rfl⟩

/-- A proposal that passes met every scaled hard threshold. -/
theorem passes_no_hard_failure {scale threshold : ℚ} (h0 : 0 < threshold) {e : Evaluated}
    (hpass : passes scale threshold e = true) :
    ∀ c ∈ e.results.map fun r => (⟨r, !r.hardPassesScaled scale⟩ : Judgement),
      c.hardFailed = false := by
  have hgate := gate_of_passes h0 hpass
  intro c hc
  obtain ⟨r, hr, rfl⟩ := List.mem_map.mp hc
  simpa using hgate.2 r hr

/-! ## Results of an evaluation carry their document's id and severity -/

/-- Soft weights of a corpus are non-negative. -/
def NonNegativeCorpus (corpus : List ConstraintDoc) : Prop :=
  ∀ doc ∈ corpus, ∀ w, doc.severity = .soft w → 0 ≤ w

/-- The ids an evaluation of the corpus reports, in order. -/
def reportedIds (corpus : List ConstraintDoc) : List String :=
  if corpus.isEmpty then ["__rubric__"] else corpus.map (·.id)

theorem evalCached_result (x : Externals) (json : ScoreJson) (settings : CorpusSettings)
    (output : String) (doc : ConstraintDoc) (world : Evaluator) (cache : EvalCache) :
    ∃ e, (evalCached x json settings output doc world cache).1.1 = complianceResult doc e := by
  unfold evalCached
  split
  · exact ⟨_, rfl⟩
  · exact ⟨_, rfl⟩

/-- Entry by entry, an evaluation of documents is a `ComplianceResult` of each. -/
theorem evalDocs_results (x : Externals) (json : ScoreJson) (settings : CorpusSettings)
    (output : String) (worlds : Nat → Evaluator) (docs : List ConstraintDoc) (i : Nat)
    (cache : EvalCache) :
    List.Forall₂ (fun doc entry => ∃ e, entry.1 = complianceResult doc e) docs
      (evalDocs x json settings output worlds docs i cache).1 := by
  induction docs generalizing i cache with
  | nil => exact .nil
  | cons doc docs ih =>
      simp only [evalDocs]
      exact .cons (evalCached_result x json settings output doc (worlds i) cache) (ih (i + 1) _)

theorem forall₂_results_ids {docs : List ConstraintDoc}
    {entries : List (ComplianceResult × Bool)}
    (h : List.Forall₂ (fun doc entry => ∃ e, entry.1 = complianceResult doc e) docs entries) :
    entries.map (fun entry => entry.1.constraintId) = docs.map (·.id) := by
  induction h with
  | nil => rfl
  | cons hhead _ ih =>
      obtain ⟨e, he⟩ := hhead
      simp [he, ih, complianceResult]

theorem evalAll_ids (x : Externals) (json : ScoreJson) (settings : CorpusSettings)
    (corpus : List ConstraintDoc) (output : String) (worlds : Nat → Evaluator)
    (cache : EvalCache) :
    (evalAll x json settings corpus output worlds cache).1.1.map (·.constraintId) =
      reportedIds corpus := by
  unfold evalAll evalEntries reportedIds
  split
  · simp [rubricResult]
  · simp only [List.map_map]
    exact forall₂_results_ids (evalDocs_results x json settings output worlds corpus 0 cache)

theorem evalAll_weights (x : Externals) (json : ScoreJson) (settings : CorpusSettings)
    {corpus : List ConstraintDoc} (output : String) (worlds : Nat → Evaluator)
    (cache : EvalCache) (h : NonNegativeCorpus corpus) :
    NonNegativeWeights (evalAll x json settings corpus output worlds cache).1.1 := by
  unfold evalAll evalEntries
  split
  · intro r hr w hw
    simp only [List.map_cons, List.map_nil, List.mem_singleton] at hr
    simp [hr, rubricResult, softWeight] at hw
  · intro r hr w hw
    obtain ⟨entry, hentry, rfl⟩ := List.mem_map.mp hr
    obtain ⟨doc, hdoc, e, he⟩ := exists_left_of_forall₂
      (evalDocs_results x json settings output worlds corpus 0 cache) hentry
    apply h doc hdoc w
    rw [he] at hw
    cases hs : doc.severity with
    | hard t => simp [softWeight, complianceResult, hs] at hw
    | soft v => simpa [softWeight, complianceResult, hs] using hw
    | advisory => simp [softWeight, complianceResult, hs] at hw

theorem evaluateAll_spec (x : Externals) (json : ScoreJson) (settings : CorpusSettings)
    {corpus : List ConstraintDoc} (worlds : Nat → Nat → Evaluator) (h : NonNegativeCorpus corpus)
    (proposals : List ProposalEvent) (k : Nat) (cache : EvalCache) :
    let evaluated := (evaluateAll x json settings corpus worlds proposals k cache).1
    evaluated.map (·.proposal) = proposals ∧
      ∀ e ∈ evaluated, e.hardFail = false ∧ NonNegativeWeights e.results := by
  refine ⟨evaluateAll_proposals x json settings corpus worlds proposals k cache, ?_⟩
  induction proposals generalizing k cache with
  | nil => simp [evaluateAll]
  | cons proposal rest ih =>
      have hentries := ih (k + 1)
        (evalAll x json settings corpus proposal.rawOutput (worlds k) cache).2
      simp only [evaluateAll, List.forall_mem_cons]
      exact ⟨⟨trivial, evalAll_weights x json settings _ _ _ h⟩, hentries⟩

/-! ## The single-judge phase -/

/-- The single judge never fails silently, whatever the evaluator answers. -/
theorem run_noSilentFailure (x : Externals) (json : ScoreJson) (config : VerificationConfig)
    {corpus : List ConstraintDoc} (consensusPasses : Nat) (worlds : Nat → Nat → Evaluator)
    (proposals : List ProposalEvent) (cache : EvalCache) (h0 : 0 < config.threshold)
    (h1 : config.threshold ≤ 1) (weights : NonNegativeCorpus corpus) :
    NoSilentFailure proposals
      (judgedSingle config.constraintThresholdScale
        (evaluateAll x json
          (config.corpusSettings config.evaluatorSystemPrompt consensusPasses)
          corpus worlds proposals 0 cache).1)
      (run x json config corpus consensusPasses worlds proposals cache).1 := by
  obtain ⟨hproposals, hentries⟩ := evaluateAll_spec x json
    (config.corpusSettings config.evaluatorSystemPrompt consensusPasses) worlds weights
    proposals 0 cache
  have hroute := route_noSilentFailure _ id
    (fun e => e.results.map fun r =>
      ⟨r, !r.hardPassesScaled config.constraintThresholdScale⟩)
    (fun e _ => by simp [Function.comp_def])
    (fun e he => passes_no_hard_failure h0)
    (fun e he c hc hfailed => by
      obtain ⟨r, _, rfl⟩ := List.mem_map.mp hc
      simp only at hfailed
      simp [isViolated, hfailed])
    (fun e he hfail => violations_nonempty h1 (hentries e he).2 hfail (hentries e he).1)
  simp only [id_eq, List.map_id] at hroute
  rw [hproposals] at hroute
  exact hroute

/-! ## The panel -/

/-- Every panel result is the first variant's result with a rewritten score. -/
theorem mem_panelResults {scale : ℚ} {kind : PanelDiversityKind} {cfg : JudgePanelConfig}
    {variants : List (List ComplianceResult)} {p : PanelResult}
    (member : p ∈ panelResults scale kind cfg variants) :
    ∃ first rest, variants = first :: rest ∧ ∃ r ∈ first, ∃ avg,
      p.result = { r with score := finalScore cfg r.severity avg p.verdict } := by
  unfold panelResults at member
  cases variants with
  | nil => simp at member
  | cons first rest =>
      obtain ⟨i, hi, rfl⟩ := List.mem_mapIdx.mp member
      exact ⟨first, rest, rfl, first[i], List.getElem_mem hi, _, rfl⟩

theorem panelResults_ids (scale : ℚ) (kind : PanelDiversityKind) (cfg : JudgePanelConfig)
    (first : List ComplianceResult) (rest : List (List ComplianceResult)) :
    (panelResults scale kind cfg (first :: rest)).map (·.result.constraintId) =
      first.map (·.constraintId) := by
  apply List.ext_getElem
  · simp [panelResults]
  · intro i _ _
    simp [panelResults, panelResult]

/-- A hard failure carries the rewritten score of its own threshold. -/
theorem hardFail_score {scale : ℚ} {kind : PanelDiversityKind} {cfg : JudgePanelConfig}
    {variants : List (List ComplianceResult)} {p : PanelResult}
    (member : p ∈ panelResults scale kind cfg variants) (hfail : p.isHardFail = true) :
    ∃ ht, p.result.severity = .hard ht ∧ p.result.score = max (ht - 1 / 100) 0 := by
  obtain ⟨first, rest, _, r, _, avg, hr⟩ := mem_panelResults member
  simp only [PanelResult.isHardFail, Bool.and_eq_true, decide_eq_true_eq] at hfail
  rw [hr, hfail.1]
  rw [hr] at hfail
  cases hs : r.severity with
  | hard ht => exact ⟨ht, rfl, by simp [finalScore]⟩
  | soft w => simp [ConstraintSeverity.isHard, hs] at hfail
  | advisory => simp [ConstraintSeverity.isHard, hs] at hfail

theorem isViolated_hard {scale threshold ht : ℚ} {r : ComplianceResult}
    (hs : r.severity = .hard ht) :
    isViolated scale threshold r = true ↔ r.score < max (ht * scale) threshold := by
  simp [isViolated, ComplianceResult.hardPassesScaled, hs]

/-- The rewritten score of every hard failure stays below one of the two
thresholds the violation filter compares with. -/
def FailScoresVisible (scale threshold : ℚ)
    (entries : List (ProposalEvent × List PanelResult)) : Prop :=
  ∀ entry ∈ entries, ∀ p ∈ entry.2, p.verdict = .fail →
    ∀ ht, p.result.severity = .hard ht → max (ht - 1 / 100) 0 < max (ht * scale) threshold

theorem isHardFail_iff (p : PanelResult) :
    p.isHardFail = true ↔ p.verdict = .fail ∧ ∃ ht, p.result.severity = .hard ht := by
  simp only [PanelResult.isHardFail, Bool.and_eq_true, decide_eq_true_eq]
  cases p.result.severity <;> simp [ConstraintSeverity.isHard]

section Panel

variable (x : Externals) (json : ScoreJson) (config : VerificationConfig)
  (corpus : List ConstraintDoc) (consensusPasses : Nat) (panel : JudgePanel)
  (cfg : JudgePanelConfig) (proposals : List ProposalEvent)

theorem mem_panelEvaluations {entry : ProposalEvent × List PanelResult}
    (member : entry ∈ panelEvaluations x json config corpus consensusPasses panel cfg proposals) :
    ∃ k, entry.2 = panelResults config.constraintThresholdScale panel.diversityKind cfg
      (variantResults x json config corpus consensusPasses panel entry.1 k) := by
  obtain ⟨k, _, rfl⟩ := List.mem_mapIdx.mp member
  exact ⟨k, rfl⟩

theorem variantResults_weights (weights : NonNegativeCorpus corpus) (proposal : ProposalEvent)
    (k : Nat) : ∀ results ∈ variantResults x json config corpus consensusPasses panel proposal k,
      NonNegativeWeights results := by
  intro results hresults
  obtain ⟨variant, _, rfl⟩ := List.mem_map.mp hresults
  exact evalAll_weights x json _ _ _ _ weights

theorem panelEvaluations_weights (weights : NonNegativeCorpus corpus) :
    ∀ entry ∈ panelEvaluations x json config corpus consensusPasses panel cfg proposals,
      NonNegativeWeights (panelEvaluated entry).results := by
  intro entry hentry r hr w hw
  obtain ⟨k, hk⟩ := mem_panelEvaluations x json config corpus consensusPasses panel cfg
    proposals hentry
  obtain ⟨p, hp, rfl⟩ := List.mem_map.mp hr
  rw [hk] at hp
  obtain ⟨first, rest, hvariants, r, hr', avg, hresult⟩ := mem_panelResults hp
  have hfirst := variantResults_weights x json config corpus consensusPasses panel weights
    entry.1 k first (by simp [hvariants])
  apply hfirst r hr' w
  rw [hresult] at hw
  exact hw

theorem panelEvaluations_ids :
    ∀ entry ∈ panelEvaluations x json config corpus consensusPasses panel cfg proposals,
      entry.2 = [] ∨ entry.2.map (·.result.constraintId) = reportedIds corpus := by
  intro entry hentry
  obtain ⟨k, hk⟩ := mem_panelEvaluations x json config corpus consensusPasses panel cfg
    proposals hentry
  rw [hk]
  cases hv : panel.variants with
  | nil => exact .inl (by simp [variantResults, hv, panelResults])
  | cons variant rest =>
      refine .inr ?_
      simp only [variantResults, hv, List.map_cons]
      rw [panelResults_ids]
      exact evalAll_ids x json _ corpus _ _ _

/-- Routing the panel's evaluations is safe when rewritten scores stay visible. -/
theorem panel_noSilentFailure (h0 : 0 < config.threshold) (h1 : config.threshold ≤ 1)
    (weights : NonNegativeCorpus corpus)
    (visible : FailScoresVisible config.constraintThresholdScale config.threshold
      (panelEvaluations x json config corpus consensusPasses panel cfg proposals)) :
    NoSilentFailure proposals
      (judgedPanel (panelEvaluations x json config corpus consensusPasses panel cfg proposals))
      (route config.constraintThresholdScale config.threshold
        ((panelEvaluations x json config corpus consensusPasses panel cfg proposals).map
          panelEvaluated)) := by
  have hproposals := panelEvaluations_proposals x json config corpus consensusPasses panel cfg
    proposals
  have hweights := panelEvaluations_weights x json config corpus consensusPasses panel cfg
    proposals weights
  have hmember : ∀ entry ∈ panelEvaluations x json config corpus consensusPasses panel cfg
      proposals, ∃ k, entry.2 = panelResults config.constraintThresholdScale panel.diversityKind
        cfg (variantResults x json config corpus consensusPasses panel entry.1 k) :=
    fun entry h => mem_panelEvaluations x json config corpus consensusPasses panel cfg proposals h
  generalize panelEvaluations x json config corpus consensusPasses panel cfg proposals = entries
    at *
  have hviolated : ∀ entry ∈ entries, ∀ p ∈ entry.2, p.isHardFail = true →
      isViolated config.constraintThresholdScale config.threshold p.result = true := by
    intro entry hentry p hp hfail
    obtain ⟨k, hk⟩ := hmember entry hentry
    obtain ⟨ht, hs, hscore⟩ := hardFail_score (hk ▸ hp) hfail
    rw [isViolated_hard hs, hscore]
    exact visible entry hentry p hp ((isHardFail_iff p).mp hfail).1 ht hs
  have hroute := route_noSilentFailure entries panelEvaluated
    (fun entry => entry.2.map fun p => ⟨p.result, p.isHardFail⟩)
    (fun entry _ => by simp [panelEvaluated, Function.comp_def])
    (fun entry _ hpass c hc => by
      obtain ⟨p, hp, rfl⟩ := List.mem_map.mp hc
      have hflag := (gate_of_passes h0 hpass).1
      simp only [panelEvaluated, List.any_eq_false] at hflag
      simpa using hflag p hp)
    (fun entry hentry c hc hfail => by
      obtain ⟨p, hp, rfl⟩ := List.mem_map.mp hc
      exact hviolated entry hentry p hp hfail)
    (fun entry hentry hdrop => by
      -- a hard failure is itself a violation; otherwise the scores are to blame
      cases hflag : (panelEvaluated entry).hardFail with
      | true =>
          obtain ⟨p, hp, hfail⟩ := List.any_eq_true.mp hflag
          exact List.ne_nil_of_mem (List.mem_map_of_mem (List.mem_filter.mpr
            ⟨List.mem_map_of_mem hp, hviolated entry hentry p hp hfail⟩))
      | false => exact violations_nonempty h1 (hweights entry hentry) hdrop hflag)
  simp only [panelEvaluated] at hroute
  rw [hproposals] at hroute
  exact hroute

/-- Conversely, with distinct ids, a safe routing shows that every rewritten score
was visible: the violation with a failed constraint's id can only be its own. -/
theorem failScoresVisible_of_noSilentFailure (distinct : (corpus.map (·.id)).Nodup)
    (safe : NoSilentFailure proposals
      (judgedPanel (panelEvaluations x json config corpus consensusPasses panel cfg proposals))
      (route config.constraintThresholdScale config.threshold
        ((panelEvaluations x json config corpus consensusPasses panel cfg proposals).map
          panelEvaluated))) :
    FailScoresVisible config.constraintThresholdScale config.threshold
      (panelEvaluations x json config corpus consensusPasses panel cfg proposals) := by
  intro entry hentry p hp hverdict ht hs
  have hfail : p.isHardFail = true := (isHardFail_iff p).mpr ⟨hverdict, ht, hs⟩
  obtain ⟨_, kept, dropped, hsplit, _, hkept, hdropped⟩ := safe
  have hjudged : (entry.1, entry.2.map fun p => (⟨p.result, p.isHardFail⟩ : Judgement)) ∈
      judgedPanel (panelEvaluations x json config corpus consensusPasses panel cfg proposals) :=
    List.mem_map_of_mem hentry
  have hj : (⟨p.result, p.isHardFail⟩ : Judgement) ∈
      entry.2.map fun p => (⟨p.result, p.isHardFail⟩ : Judgement) := List.mem_map_of_mem hp
  rcases hsplit.mem_or hjudged with hin | hout
  · have := hkept _ hin _ hj
    simp [hfail] at this
  obtain ⟨failed, hfailed, hreport⟩ := exists_right_of_forall₂ hdropped hout
  obtain ⟨v, hv, hvid⟩ := hreport.complete _ hj hfail
  rw [route_eq] at hfailed
  obtain ⟨evaluated, _, rfl⟩ := List.mem_map.mp hfailed
  obtain ⟨r, hr, rfl⟩ := List.mem_map.mp hv
  obtain ⟨hrmem, hrviolated⟩ := List.mem_filter.mp hr
  have hresults : evaluated.results = entry.2.map (·.result) := by
    have := hreport.results
    simpa [toFailed, Function.comp_def] using this
  rw [hresults] at hrmem
  obtain ⟨q, hq, rfl⟩ := List.mem_map.mp hrmem
  have hids : (entry.2.map (·.result.constraintId)).Nodup := by
    rcases panelEvaluations_ids x json config corpus consensusPasses panel cfg proposals entry
      hentry with hnil | hids
    · simp [hnil]
    · rw [hids]
      unfold reportedIds
      split
      · simp
      · exact distinct
  have hqp : q = p := List.inj_on_of_nodup_map hids hq hp hvid
  subst hqp
  obtain ⟨k, hk⟩ := mem_panelEvaluations x json config corpus consensusPasses panel cfg
    proposals hentry
  obtain ⟨ht', hs', hscore⟩ := hardFail_score (hk ▸ hp) hfail
  rw [hs] at hs'
  obtain rfl : ht = ht' := by simpa using hs'
  rw [isViolated_hard hs, hscore] at hrviolated
  exact hrviolated

end Panel

/-! ## Both phases -/

/-- The judgements behind `run_with_panel`; a single variant is a single judge. -/
def judgedWithPanel (x : Externals) (json : ScoreJson) (config : VerificationConfig)
    (corpus : List ConstraintDoc) (consensusPasses : Nat) (worlds : Nat → Nat → Evaluator)
    (panel : JudgePanel) (cfg : JudgePanelConfig) (proposals : List ProposalEvent)
    (cache : EvalCache) : List Judged :=
  if panel.variants.length = 1 then
    judgedSingle config.constraintThresholdScale
      (evaluateAll x json (config.corpusSettings config.evaluatorSystemPrompt consensusPasses)
        corpus worlds proposals 0 cache).1
  else
    judgedPanel (panelEvaluations x json config corpus consensusPasses panel cfg proposals)

/-- The single judge never fails silently. A panel of several judges does not
either as long as the rewritten score of every hard failure is below the scaled
threshold or the phase threshold, and with distinct constraint ids only then. -/
theorem verification_no_silent_failure_iff (x : Externals) (json : ScoreJson)
    (config : VerificationConfig) (corpus : List ConstraintDoc) (consensusPasses : Nat)
    (worlds : Nat → Nat → Evaluator) (panel : JudgePanel) (cfg : JudgePanelConfig)
    (proposals : List ProposalEvent) (cache : EvalCache)
    (h0 : 0 < config.threshold) (h1 : config.threshold ≤ 1)
    (weights : NonNegativeCorpus corpus) :
    NoSilentFailure proposals
        (judgedSingle config.constraintThresholdScale
          (evaluateAll x json
            (config.corpusSettings config.evaluatorSystemPrompt consensusPasses)
            corpus worlds proposals 0 cache).1)
        (run x json config corpus consensusPasses worlds proposals cache).1 ∧
      ((panel.variants.length ≠ 1 →
          FailScoresVisible config.constraintThresholdScale config.threshold
            (panelEvaluations x json config corpus consensusPasses panel cfg proposals)) →
        NoSilentFailure proposals
          (judgedWithPanel x json config corpus consensusPasses worlds panel cfg proposals cache)
          (runWithPanel x json config corpus consensusPasses worlds panel cfg proposals
            cache).1.1) ∧
      ((corpus.map (·.id)).Nodup →
        NoSilentFailure proposals
          (judgedWithPanel x json config corpus consensusPasses worlds panel cfg proposals cache)
          (runWithPanel x json config corpus consensusPasses worlds panel cfg proposals
            cache).1.1 →
        panel.variants.length ≠ 1 →
          FailScoresVisible config.constraintThresholdScale config.threshold
            (panelEvaluations x json config corpus consensusPasses panel cfg proposals)) := by
  have hrun := run_noSilentFailure x json config consensusPasses worlds proposals cache h0 h1
    weights
  refine ⟨hrun, ?_, ?_⟩
  · intro visible
    unfold judgedWithPanel runWithPanel
    by_cases hsingle : panel.variants.length = 1
    · simp only [hsingle, ↓reduceIte]
      exact hrun
    · simp only [hsingle, ↓reduceIte]
      exact panel_noSilentFailure x json config corpus consensusPasses panel cfg proposals
        h0 h1 weights (visible hsingle)
  · intro distinct safe hmany
    unfold judgedWithPanel runWithPanel at safe
    simp only [hmany, ↓reduceIte] at safe
    exact failScoresVisible_of_noSilentFailure x json config corpus consensusPasses panel cfg
      proposals distinct safe

section Example

def panelResponse : String := "\x7b\"score\": 0.2, \"reason\": \"not encrypted\"\x7d"

def panelJson : ScoreJson :=
  { fromStr := fun text =>
      if text = panelResponse.toList then some (1 / 5, "not encrypted") else none
    valueLength := fun _ => none }

def panelWorld : Nat → Nat → Evaluator := fun _ _ =>
  { execute := fun _ _ _ => ⟨some panelResponse, false⟩
    testRunner := fun _ _ _ _ _ => none }

def encryptionDoc : ConstraintDoc :=
  { id := "C-ENC"
    sourceFile := "C-ENC.yaml"
    description := "encrypt at rest"
    severity := .hard (8 / 10)
    predicate := .composite .and [.llmJudge "encrypts at rest"]
    remediationHint := none
    domains := []
    mandatoryForTags := []
    relatedTo := []
    binaryChecks := []
    version := 1
    repairProvenance := none
    passCriteria := none }

/-- First retry wave: the hard thresholds are scaled by 0.9. -/
def retryConfig : VerificationConfig := ⟨1 / 2, "", "evaluate", 1 / 10, 1024, 9 / 10⟩

def crossFamilyPanel : JudgePanel :=
  ⟨[⟨.literal, panelWorld⟩, ⟨.literal, panelWorld⟩], .crossFamily⟩

def panelConfig : JudgePanelConfig := ⟨67 / 100, 7 / 10⟩

def draftProposal : ProposalEvent := ⟨"task", "explorer-1", 3 / 10, 0, "store in plain text", 12⟩

/-- Both judges reject a Hard constraint on a retry wave. The proposal fails with
the rewritten score 0.79, above 0.8 · 0.9 and above the phase threshold, so its
violation list is empty. -/
theorem panel_drops_without_reason :
    let out := (runWithPanel asciiExternals panelJson retryConfig [encryptionDoc] 1 panelWorld
      crossFamilyPanel panelConfig [draftProposal] newEvalCache).1.1
    (panelEvaluations asciiExternals panelJson retryConfig [encryptionDoc] 1 crossFamilyPanel
        panelConfig [draftProposal]).map (fun e => e.2.map (·.isHardFail)) = [[true]] ∧
      out.passed = [] ∧ out.failed.map (fun f => (f.proposal, f.violations)) =
        [(draftProposal, [])] := by
  decide +kernel

/-- On the first wave the same panel reports the failed constraint. -/
theorem panel_reports_unscaled :
    let config := { retryConfig with constraintThresholdScale := 1 }
    NoSilentFailure [draftProposal]
      (judgedWithPanel asciiExternals panelJson config [encryptionDoc] 1 panelWorld
        crossFamilyPanel panelConfig [draftProposal] newEvalCache)
      (runWithPanel asciiExternals panelJson config [encryptionDoc] 1 panelWorld
        crossFamilyPanel panelConfig [draftProposal] newEvalCache).1.1 := by
  refine (verification_no_silent_failure_iff asciiExternals panelJson _ [encryptionDoc] 1
    panelWorld crossFamilyPanel panelConfig [draftProposal] newEvalCache (by decide +kernel)
    (by decide +kernel) ?_).2.1 ?_
  · intro doc hdoc w hw
    rw [List.mem_singleton.mp hdoc] at hw
    simp [encryptionDoc] at hw
  · intro _ entry hentry p hp _ ht hs
    have hthreshold : ∀ entry ∈ panelEvaluations asciiExternals panelJson
        { retryConfig with constraintThresholdScale := 1 } [encryptionDoc] 1 crossFamilyPanel
        panelConfig [draftProposal], ∀ p ∈ entry.2, p.result.severity = .hard (8 / 10) := by
      decide +kernel
    rw [hthreshold entry hentry p hp] at hs
    obtain rfl : 8 / 10 = ht := by simpa using hs
    decide +kernel

end Example

end ControlPlane.Guarantees.VerificationRouting
