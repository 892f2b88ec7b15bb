import ControlPlane.Source.Engine.Proposals
import ControlPlane.Source.MapeK.ControllerRuns

/-!
# The frozen-verifier bypass

A Hard constraint whose verifier is frozen is put on the controller's bypass list,
and a proposal that fails only bypassed constraints is meant to pass pruning. The
phase splits the proposals before it looks at the list: `run_with_panel` decides
who fails, and the list only changes the compliance written on a failed branch.
-/
namespace ControlPlane.Guarantees.FrozenBypass

open Source Source.Constraints Source.Verification Source.MapeK Source.Engine

/-! ## The gate -/

/-- One result of a proposal, and whether it is a Hard constraint that the proposal
fails: it misses the scaled threshold, or the panel's verdict is Fail. -/
structure GateCheck where
  result : ComplianceResult
  failed : Bool

/-- A proposal at the gate. -/
structure GateEntry where
  proposal : ProposalEvent
  checks : List GateCheck
  anyCacheHit : Bool

namespace GateEntry

def results (e : GateEntry) : List ComplianceResult := e.checks.map (·.result)

/-- The ids of the Hard constraints the proposal fails. -/
def failing (e : GateEntry) : List String :=
  (e.checks.filter (·.failed)).map (·.result.constraintId)

/-- The remaining gate: the soft score against the threshold. -/
def softScore (e : GateEntry) : ℚ := aggregateComplianceScore e.results

/-- The verdict of the phase. -/
def survives (threshold : ℚ) (e : GateEntry) : Bool :=
  decide (threshold ≤ if e.failing = [] then e.softScore else 0)

def toPassed (e : GateEntry) : PassedProposal := ⟨e.proposal, e.results, e.anyCacheHit⟩

def toFailed (scale threshold : ℚ) (e : GateEntry) : FailedProposal :=
  ⟨e.proposal, e.results, violationsOf scale threshold e.results, e.anyCacheHit⟩

end GateEntry

def singleEntry (scale : ℚ) (e : Evaluated) : GateEntry :=
  ⟨e.proposal, e.results.map fun r => ⟨r, !r.hardPassesScaled scale⟩, e.anyCacheHit⟩

def panelEntry (scale : ℚ) (entry : ProposalEvent × List PanelResult) : GateEntry :=
  ⟨entry.1, entry.2.map fun p => ⟨p.result, p.isHardFail || !p.result.hardPassesScaled scale⟩,
    false⟩

section Wave

variable (x : Externals) (json : ScoreJson) (config : VerificationConfig)
  (corpus : List ConstraintDoc) (consensusPasses : Nat) (worlds : Nat → Nat → Evaluator)
  (panel : JudgePanel) (cfg : JudgePanelConfig) (proposals : List ProposalEvent)
  (cache : EvalCache)

/-- The proposals of a wave at the gate, with what the judge or the panel says. -/
def gateEntries : List GateEntry :=
  if panel.variants.length = 1 then
    (evaluateAll x json (config.corpusSettings config.evaluatorSystemPrompt consensusPasses)
      corpus worlds proposals 0 cache).1.map (singleEntry config.constraintThresholdScale)
  else
    (panelEvaluations x json config corpus consensusPasses panel cfg proposals).map
      (panelEntry config.constraintThresholdScale)

theorem gateEntries_proposals :
    (gateEntries x json config corpus consensusPasses worlds panel cfg proposals cache).map
      (·.proposal) = proposals := by
  unfold gateEntries
  split
  · rw [List.map_map]
    exact evaluateAll_proposals x json _ corpus worlds proposals 0 cache
  · rw [List.map_map]
    exact panelEvaluations_proposals x json config corpus consensusPasses panel cfg proposals

end Wave

theorem failing_eq_nil_iff (e : GateEntry) :
    e.failing = [] ↔ ∀ check ∈ e.checks, check.failed = false := by
  simp [GateEntry.failing, List.filter_eq_nil_iff]

/-- The single judge never sets the panel's flag. -/
theorem evaluateAll_hardFail (x : Externals) (json : ScoreJson) (settings : CorpusSettings)
    (corpus : List ConstraintDoc) (worlds : Nat → Nat → Evaluator) (proposals : List ProposalEvent)
    (k : Nat) (cache : EvalCache) :
    ∀ e ∈ (evaluateAll x json settings corpus worlds proposals k cache).1, e.hardFail = false := by
  induction proposals generalizing k cache with
  | nil => simp [evaluateAll]
  | cons proposal rest ih =>
      simp only [evaluateAll, List.forall_mem_cons]
      exact ⟨trivial, ih (k + 1) _⟩

/-- The verdict of the routing is the verdict at the gate. -/
theorem passes_singleEntry (scale threshold : ℚ) {e : Evaluated} (flag : e.hardFail = false) :
    passes scale threshold e = (singleEntry scale e).survives threshold := by
  have hresults : (singleEntry scale e).results = e.results := by
    simp [singleEntry, GateEntry.results, Function.comp_def]
  have hgate : (e.results.all (·.hardPassesScaled scale) = true) ↔
      (singleEntry scale e).failing = [] := by
    rw [failing_eq_nil_iff]
    simp [singleEntry]
  unfold passes overallScore GateEntry.survives GateEntry.softScore
  simp only [hresults, flag, Bool.not_false, Bool.true_and, hgate]

theorem passes_panelEntry (scale threshold : ℚ) (entry : ProposalEvent × List PanelResult) :
    passes scale threshold (panelEvaluated entry) =
      (panelEntry scale entry).survives threshold := by
  have hresults : (panelEntry scale entry).results = (panelEvaluated entry).results := by
    simp [panelEntry, panelEvaluated, GateEntry.results]
  have hgate : ((!(panelEvaluated entry).hardFail &&
      (panelEvaluated entry).results.all (·.hardPassesScaled scale)) = true) ↔
      (panelEntry scale entry).failing = [] := by
    rw [failing_eq_nil_iff]
    simp only [panelEvaluated, panelEntry, Bool.and_eq_true, Bool.not_eq_true', List.any_eq_false,
      List.all_eq_true, List.mem_map, forall_exists_index, and_imp, forall_apply_eq_imp_iff₂,
      Bool.or_eq_false_iff, Bool.not_eq_false', Bool.not_eq_true]
    exact ⟨fun h p hp => ⟨h.1 p hp, h.2 p hp⟩,
      fun h => ⟨fun p hp => (h p hp).1, fun p hp => (h p hp).2⟩⟩
  unfold passes overallScore GateEntry.survives GateEntry.softScore
  simp only [hresults, hgate]

/-- The two lists of the phase are the survivors at the gate and the others. -/
def gateOutput (scale threshold : ℚ) (entries : List GateEntry) : VerificationOutput :=
  { passed := (entries.filter (·.survives threshold)).map (·.toPassed)
    failed := (entries.filter fun e => !e.survives threshold).map (·.toFailed scale threshold) }

/-- Routing splits at the gate when every evaluation has the verdict and the data of
its entry. -/
theorem route_gateOutput {ι : Type} (scale threshold : ℚ) (items : List ι)
    (eval : ι → Evaluated) (entry : ι → GateEntry)
    (verdict : ∀ i ∈ items, passes scale threshold (eval i) = (entry i).survives threshold)
    (data : ∀ i ∈ items, toPassed (eval i) = (entry i).toPassed) :
    route scale threshold (items.map eval) = gateOutput scale threshold (items.map entry) := by
  rw [route_eq]
  unfold gateOutput
  induction items with
  | nil => rfl
  | cons i items ih =>
      have hrest := ih (fun j hj => verdict j (by simp [hj])) (fun j hj => data j (by simp [hj]))
      simp only [VerificationOutput.mk.injEq] at hrest
      have hv := verdict i (by simp)
      have hd := data i (by simp)
      have hf : toFailed scale threshold (eval i) = (entry i).toFailed scale threshold := by
        simp only [toPassed, GateEntry.toPassed, PassedProposal.mk.injEq] at hd
        simp only [toFailed, GateEntry.toFailed, hd]
      simp only [List.map_cons, List.filter_cons, hv, VerificationOutput.mk.injEq]
      cases (entry i).survives threshold with
      | true => exact ⟨by simp [hd, hrest.1], by simp [hrest.2]⟩
      | false => exact ⟨by simp [hrest.1], by simp [hf, hrest.2]⟩

theorem runWithPanel_gateOutput (x : Externals) (json : ScoreJson) (config : VerificationConfig)
    (corpus : List ConstraintDoc) (consensusPasses : Nat) (worlds : Nat → Nat → Evaluator)
    (panel : JudgePanel) (cfg : JudgePanelConfig) (proposals : List ProposalEvent)
    (cache : EvalCache) :
    (runWithPanel x json config corpus consensusPasses worlds panel cfg proposals cache).1.1 =
      gateOutput config.constraintThresholdScale config.threshold
        (gateEntries x json config corpus consensusPasses worlds panel cfg proposals cache) := by
  unfold runWithPanel gateEntries run
  split
  · have hroute := route_gateOutput config.constraintThresholdScale config.threshold
      (evaluateAll x json (config.corpusSettings config.evaluatorSystemPrompt consensusPasses)
        corpus worlds proposals 0 cache).1 id (singleEntry config.constraintThresholdScale)
      (fun e he => passes_singleEntry _ _ (evaluateAll_hardFail x json _ corpus worlds proposals 0
        cache e he))
      (fun e _ => by simp [toPassed, GateEntry.toPassed, singleEntry, GateEntry.results,
        Function.comp_def])
    rwa [List.map_id] at hroute
  · exact route_gateOutput _ _ _ panelEvaluated (panelEntry config.constraintThresholdScale)
      (fun entry _ => passes_panelEntry _ _ entry)
      (fun entry _ => by simp [toPassed, GateEntry.toPassed, panelEntry, panelEvaluated,
        GateEntry.results, Function.comp_def])

/-! ## The property -/

/-- A proposal that fails bypassed constraints only and meets the threshold survives,
and one that fails a constraint outside the list is pruned. -/
def BypassHonoured (threshold : ℚ) (bypassed : List String) (e : GateEntry) : Prop :=
  ((∀ id ∈ e.failing, id ∈ bypassed) → threshold ≤ e.softScore → e.survives threshold = true) ∧
    ((∃ id ∈ e.failing, id ∉ bypassed) → e.survives threshold = false)

/-- The proposal does not need the list: it fails nothing, it fails bypassed
constraints only and the soft gate says the same as the hard one, or it fails
another constraint and the threshold is above the score of a closed gate. -/
def BypassNotNeeded (threshold : ℚ) (bypassed : List String) (e : GateEntry) : Prop :=
  e.failing = [] ∨
    ((∀ id ∈ e.failing, id ∈ bypassed) ∧ (threshold ≤ 0 ∨ e.softScore < threshold)) ∨
    ((∃ id ∈ e.failing, id ∉ bypassed) ∧ 0 < threshold)

instance (threshold : ℚ) (bypassed : List String) (e : GateEntry) :
    Decidable (BypassNotNeeded threshold bypassed e) :=
  inferInstanceAs (Decidable (_ ∨ (_ ∧ _) ∨ (_ ∧ _)))

theorem bypassHonoured_iff (threshold : ℚ) (bypassed : List String) (e : GateEntry) :
    BypassHonoured threshold bypassed e ↔ BypassNotNeeded threshold bypassed e := by
  unfold BypassHonoured BypassNotNeeded GateEntry.survives
  by_cases hnone : e.failing = []
  · simp [hnone]
  simp only [hnone, ↓reduceIte, decide_eq_true_eq, decide_eq_false_iff_not, not_le, false_or]
  have hsome : (∃ id ∈ e.failing, id ∉ bypassed) ↔ ¬ ∀ id ∈ e.failing, id ∈ bypassed := by
    simp only [not_forall, exists_prop]
  rw [hsome]
  by_cases hall : ∀ id ∈ e.failing, id ∈ bypassed
  · constructor
    · rintro ⟨passes, -⟩
      by_cases hsoft : threshold ≤ e.softScore
      · exact .inl ⟨hall, .inl (passes hall hsoft)⟩
      · exact .inl ⟨hall, .inr (not_le.mp hsoft)⟩
    · rintro (⟨-, h0 | hsoft⟩ | ⟨hout, -⟩)
      · exact ⟨fun _ _ => h0, fun hout => absurd hall hout⟩
      · exact ⟨fun _ hmeets => absurd hmeets (not_le.mpr hsoft), fun hout => absurd hall hout⟩
      · exact absurd hall hout
  · constructor
    · rintro ⟨-, blocks⟩
      exact .inr ⟨hall, blocks hall⟩
    · rintro (⟨hin, -⟩ | ⟨-, h0⟩)
      · exact absurd hin hall
      · exact ⟨fun hin => absurd hin hall, fun _ => h0⟩

/-- For every controller state, corpus, judge or panel, wave of proposals and cache:
the phase keeps and prunes exactly by the verdicts at the gate, and for every
proposal of the wave the bypass takes effect exactly when the proposal does not
need it. -/
theorem bypass_honoured_iff (c : MapeKController) (input : EngineInput)
    (settings : ProposalSettings) (x : Externals) (json : ScoreJson) (config : VerificationConfig)
    (corpus : List ConstraintDoc) (consensusPasses : Nat) (worlds : Nat → Nat → Evaluator)
    (panel : JudgePanel) (cfg : JudgePanelConfig) (proposals : List ProposalEvent)
    (cache : EvalCache) (tauValues : List ℚ) :
    let entries := gateEntries x json config corpus consensusPasses worlds panel cfg proposals cache
    let scale := config.constraintThresholdScale
    let out :=
      (runWithPanel x json config corpus consensusPasses worlds panel cfg proposals cache).1.1
    entries.map (·.proposal) = proposals ∧
      out.passed = (entries.filter (·.survives config.threshold)).map (·.toPassed) ∧
      (∀ verified, verifyRun input settings scale c.bypassedVerifierConstraints tauValues out =
          .done verified →
        verified.pruned = (entries.filter fun e => !e.survives config.threshold).map fun e =>
          failedBranch scale c.bypassedVerifierConstraints (e.toFailed scale config.threshold)) ∧
      ∀ e ∈ entries, BypassHonoured config.threshold c.bypassedVerifierConstraints e ↔
        BypassNotNeeded config.threshold c.bypassedVerifierConstraints e := by
  intro entries scale out
  have hout : out = gateOutput scale config.threshold entries :=
    runWithPanel_gateOutput x json config corpus consensusPasses worlds panel cfg proposals cache
  refine ⟨gateEntries_proposals x json config corpus consensusPasses worlds panel cfg proposals
    cache, by rw [hout]; rfl, ?_, fun e _ => bypassHonoured_iff _ _ e⟩
  intro verified hdone
  unfold verifyRun at hdone
  dsimp only at hdone
  split at hdone
  · cases hdone
  · cases hdone
    rw [hout]
    simp [gateOutput]

/-! ## A frozen verifier -/

section Example

def hardViolation (constraintId reason : String) (score : ℚ) : ConstraintViolation :=
  { constraintId := constraintId
    score := score
    severityLabel := .hard
    remediationHint := none
    constraintDescription := ""
    verifierReason := some reason
    checkVerdicts := []
    criteriaPass := none
    checkReasons := none }

/-- A wave whose draft fails two constraints; only the second one makes progress. -/
def frozenWave (timeoutScore : ℚ) : WaveEvents :=
  { noEvents with prunedEvents := [⟨"explorer-1", "verification compliance 0.35", "draft",
      [hardViolation "C-IDEM" "no idempotency key" (1 / 10),
        hardViolation "C-TIMEOUT" "timeout is too long" timeoutScore], 0⟩] }

/-- What the controller is after four such waves. -/
def frozenController : MapeKController :=
  replay asciiLib
    (MapeKController.new { Config.H2AIConfig.reference with maxAutonomicRetries := 5 } plainInit [])
    [.observe (frozenWave (5 / 10)) 0, .observe (frozenWave (6 / 10)) 1,
      .observe (frozenWave (7 / 10)) 2, .observe (frozenWave (8 / 10)) 3,
      .decide (.earlyExit (.zeroSurvival none none 0 [] [])) 3 0]

def idempotencyDoc : ConstraintDoc :=
  { id := "C-IDEM"
    sourceFile := "C-IDEM.yaml"
    description := "idempotent writes"
    severity := .hard (1 / 2)
    predicate := .llmJudge "writes carry an idempotency key"
    remediationHint := none
    domains := []
    mandatoryForTags := []
    relatedTo := []
    binaryChecks := []
    version := 1
    repairProvenance := none
    passCriteria := none }

def frozenAnswer : String := "\x7b\"score\": 0.1, \"reason\": \"no idempotency key\"\x7d"

def frozenJson : ScoreJson :=
  { fromStr := fun text =>
      if text = frozenAnswer.toList then some (1 / 10, "no idempotency key") else none
    valueLength := fun _ => none }

def frozenJudge : Evaluator := ⟨fun _ _ _ => ⟨some frozenAnswer, false⟩, fun _ _ _ _ _ => none⟩

def frozenConfig : VerificationConfig := ⟨1 / 2, "", "evaluate", 1 / 10, 1024, 1⟩

def soloPanel : JudgePanel := ⟨[⟨.literal, fun _ _ => frozenJudge⟩], .personaOnly⟩

def retriedDraft : ProposalEvent := ⟨"task", "explorer-1", 1 / 2, 4, "upsert by key", 10⟩

/-- C-IDEM is frozen and on the bypass list. The next draft fails nothing else and
has a full soft score, and it is pruned all the same. -/
theorem bypassed_proposal_is_pruned :
    frozenController.bypassedVerifierConstraints = ["C-IDEM"] ∧
    (gateEntries asciiExternals frozenJson frozenConfig [idempotencyDoc] 1
        (fun _ _ => frozenJudge) soloPanel ⟨2 / 3, 1 / 2⟩ [retriedDraft] newEvalCache).map
      (fun e => (e.failing, e.softScore)) = [(["C-IDEM"], 1)] ∧
    (runWithPanel asciiExternals frozenJson frozenConfig [idempotencyDoc] 1
        (fun _ _ => frozenJudge) soloPanel ⟨2 / 3, 1 / 2⟩ [retriedDraft] newEvalCache).1.1.passed =
      [] ∧
    ∃ e ∈ gateEntries asciiExternals frozenJson frozenConfig [idempotencyDoc] 1
        (fun _ _ => frozenJudge) soloPanel ⟨2 / 3, 1 / 2⟩ [retriedDraft] newEvalCache,
      ¬ BypassHonoured frozenConfig.threshold frozenController.bypassedVerifierConstraints e := by
  simp only [bypassHonoured_iff]
  refine ⟨?_, ?_, ?_, ?_⟩
  · decide +kernel
  · decide +kernel
  · decide +kernel
  · decide +kernel

end Example

end ControlPlane.Guarantees.FrozenBypass
