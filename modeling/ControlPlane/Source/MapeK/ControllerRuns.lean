import ControlPlane.Source.MapeK.Controller

/-!
# Runs of the MAPE-K controller

What one call on `MapeKController` leaves alone, and from it what any
interleaving of observations, token charges, memory aborts, operator input,
probe results and decisions leaves alone. Two relations carry this: `Settled`
for the detectors in front of a decision, and `Later` for whole runs.
-/
namespace ControlPlane.Source.MapeK

open Config Constraints Verification

/-! ## What `decide` leaves alone -/

/-- The instability check writes scorecards and pending reports only. -/
theorem checkInstability_eq (lib : ControllerLib) (c : MapeKController) (wave : Nat) :
    ∃ cards events, (c.checkInstability lib wave).2 =
      { c with ambiguityScorecards := cards, pendingAmbiguityEvents := events } := by
  unfold MapeKController.checkInstability
  split
  · exact ⟨_, _, rfl⟩
  · exact ⟨c.ambiguityScorecards, c.pendingAmbiguityEvents, rfl⟩

theorem checkFrozen_eq (scores : List (String × List ℚ)) (reasons : List (String × List String))
    (wave : Nat) (c : MapeKController) (cid : String) :
    ∃ events bypassed, c.checkFrozen scores reasons wave cid =
      { c with pendingFrozenVerifierEvents := events, bypassedVerifierConstraints := bypassed } := by
  have keep : ∃ events bypassed, c = { c with
      pendingFrozenVerifierEvents := events, bypassedVerifierConstraints := bypassed } :=
    ⟨c.pendingFrozenVerifierEvents, c.bypassedVerifierConstraints, rfl⟩
  unfold MapeKController.checkFrozen
  split
  · exact keep
  · split
    · exact keep
    · dsimp only
      split
      · exact keep
      · exact ⟨_, _, rfl⟩

theorem detectFrozen_eq (lib : ControllerLib) (c : MapeKController) (wave : Nat) :
    ∃ events bypassed, c.detectFrozen lib wave =
      { c with pendingFrozenVerifierEvents := events, bypassedVerifierConstraints := bypassed } := by
  have hfold : ∀ (scores : List (String × List ℚ)) (reasons : List (String × List String))
      (ids : List String) (c : MapeKController), ∃ events bypassed,
      ids.foldl (MapeKController.checkFrozen scores reasons wave) c =
        { c with
          pendingFrozenVerifierEvents := events
          bypassedVerifierConstraints := bypassed } := by
    intro scores reasons ids
    induction ids with
    | nil => exact fun c => ⟨c.pendingFrozenVerifierEvents, c.bypassedVerifierConstraints, rfl⟩
    | cons cid rest ih =>
        intro c
        obtain ⟨events, bypassed, hstep⟩ := checkFrozen_eq scores reasons wave c cid
        obtain ⟨events', bypassed', hrest⟩ := ih (c.checkFrozen scores reasons wave cid)
        refine ⟨events', bypassed', ?_⟩
        rw [List.foldl_cons, hrest, hstep]
  unfold MapeKController.detectFrozen
  split
  · exact hfold _ _ _ c
  · exact ⟨c.pendingFrozenVerifierEvents, c.bypassedVerifierConstraints, rfl⟩

/-- The state in which the outcome is looked at: two detectors have run, neither
of which touches what the routing reads. -/
structure Settled (c c' : MapeKController) : Prop where
  eq : ∃ cards ambiguity frozen bypassed, c' =
    { c with
      ambiguityScorecards := cards
      pendingAmbiguityEvents := ambiguity
      pendingFrozenVerifierEvents := frozen
      bypassedVerifierConstraints := bypassed }

theorem settled_detectors (lib : ControllerLib) (c : MapeKController) (wave : Nat) :
    Settled c ((c.checkInstability lib wave).2.detectFrozen lib wave) := by
  obtain ⟨cards, ambiguity, hinst⟩ := checkInstability_eq lib c wave
  obtain ⟨frozen, bypassed, hfrozen⟩ := detectFrozen_eq lib (c.checkInstability lib wave).2 wave
  refine ⟨cards, ambiguity, frozen, bypassed, ?_⟩
  rw [hfrozen, hinst]

/-- `decide` answers an instability signal first and looks at the outcome only
without one. -/
theorem decide_eq (lib : ControllerLib) (c : MapeKController) (outcome : PipelineOutcome)
    (retryCount : Nat) (filterRatio : ℚ) :
    ∃ c', Settled c c' ∧ c.decide lib outcome retryCount filterRatio =
      match (c.checkInstability lib retryCount).1 with
      | some signal => (.specAmbiguous signal, (c.checkInstability lib retryCount).2)
      | none =>
          match outcome with
          | .resolved merge => c'.decideResolved merge retryCount
          | .fatal e => (.fail e ⟨[], none, [], none⟩, c')
          | .earlyExit reason => c'.handleExitReason lib reason retryCount filterRatio := by
  refine ⟨_, settled_detectors lib c retryCount, ?_⟩
  unfold MapeKController.decide
  cases hcheck : c.checkInstability lib retryCount with
  | mk signal next =>
      cases signal with
      | some signal => rfl
      | none => cases outcome <;> rfl

/-- Frame rule for decisions: what the detectors, the resolved arm and the exits keep is
kept by `decide`. -/
theorem decide_relates {R : MapeKController → MapeKController → Prop} {lib : ControllerLib}
    {c : MapeKController} {retryCount : Nat} {filterRatio : ℚ}
    (trans : ∀ {c₁ c₂ c₃}, R c₁ c₂ → R c₂ c₃ → R c₁ c₃)
    (instability : ∀ cards events,
      R c { c with ambiguityScorecards := cards, pendingAmbiguityEvents := events })
    (settled : ∀ c', Settled c c' → R c c')
    (resolved : ∀ c' merge, R c' (c'.decideResolved merge retryCount).2)
    (exits : ∀ c' reason, R c' (c'.handleExitReason lib reason retryCount filterRatio).2)
    (outcome : PipelineOutcome) : R c (c.decide lib outcome retryCount filterRatio).2 := by
  obtain ⟨c', hsettled, heq⟩ := decide_eq lib c outcome retryCount filterRatio
  rw [heq]
  cases (c.checkInstability lib retryCount).1 with
  | some signal =>
      obtain ⟨cards, events, hinst⟩ := checkInstability_eq lib c retryCount
      rw [hinst]
      exact instability cards events
  | none =>
      cases outcome with
      | resolved merge => exact trans (settled c' hsettled) (resolved c' merge)
      | fatal e => exact settled c' hsettled
      | earlyExit reason => exact trans (settled c' hsettled) (exits c' reason)

/-- What the resolved arm writes. -/
theorem decideResolved_eq (c : MapeKController) (merge : MergeOutput) (retryCount : Nat) :
    ∃ exhausted gate tee taus quality, (c.decideResolved merge retryCount).2 =
      { c with budgetExhausted := exhausted, convergenceGateEvent := gate, teeEvent := tee,
               tauValuesTried := taus, qualityHistory := quality } := by
  have hbudget : ∃ exhausted, c.noteBudget = { c with budgetExhausted := exhausted } := by
    unfold MapeKController.noteBudget
    split
    · exact ⟨true, rfl⟩
    · exact ⟨c.budgetExhausted, rfl⟩
  obtain ⟨exhausted, hbudget⟩ := hbudget
  have hgates : ∃ gate, c.noteBudget.noteConvergence merge retryCount =
      { c with budgetExhausted := exhausted, convergenceGateEvent := gate } := by
    rw [hbudget]
    unfold MapeKController.noteConvergence
    split
    · exact ⟨_, rfl⟩
    · exact ⟨c.convergenceGateEvent, rfl⟩
  obtain ⟨gate, hgates⟩ := hgates
  unfold MapeKController.decideResolved
  dsimp only
  rw [hgates]
  split
  · exact ⟨exhausted, gate, c.teeEvent, c.tauValuesTried, c.qualityHistory, rfl⟩
  · unfold MapeKController.noteTieredExit
    split <;> exact ⟨exhausted, gate, _, _, _, rfl⟩

/-- What a retry action writes. -/
theorem applyRetryAction_eq (lib : ControllerLib) (c : MapeKController) (action : RetryAction)
    (retryCount : Nat) (filterRatio : ℚ) :
    ∃ topology factor context turns config params,
      (c.applyRetryAction lib action retryCount filterRatio).2 =
        { c with forceTopology := topology, tauReductionFactor := factor, retryContext := context,
                 taoMaxTurns := turns, verificationConfig := config, currentParams := params } := by
  cases action with
  | fail =>
      unfold MapeKController.applyRetryAction
      dsimp only
      split <;> exact ⟨_, _, _, _, _, _, rfl⟩
  | _ => exact ⟨_, _, _, _, _, _, rfl⟩

/-! ## What a decision can be -/

/-- The triggers in front of the retry policy all end in a complexity overflow. -/
def IsOverflow (decision : MapeKDecision) : Prop :=
  ∃ probeScore rationale graftFirst,
    decision = .complexityOverflow probeScore rationale graftFirst

theorem probeRouting_overflow {c : MapeKController} {retryCount : Nat} {decision : MapeKDecision}
    (h : c.probeRouting retryCount = some decision) : IsOverflow decision := by
  unfold MapeKController.probeRouting at h
  split at h
  · cases h
  · dsimp only at h
    split at h
    · split at h
      · cases h
        exact ⟨_, _, _, rfl⟩
      · split at h
        · cases h
          exact ⟨_, _, _, rfl⟩
        · cases h
    · cases h

theorem integrationTrigger_overflow {c : MapeKController} {retryCount : Nat}
    {decision : MapeKDecision} (h : c.integrationTrigger retryCount = some decision) :
    IsOverflow decision := by
  unfold MapeKController.integrationTrigger at h
  dsimp only at h
  split at h
  · split at h
    · cases h
      exact ⟨_, _, _, rfl⟩
    · cases h
  · cases h

theorem ceilingTrigger_overflow {lib : ControllerLib} {c : MapeKController}
    {nEffCosine : Option ℚ} {retryCount : Nat} {decision : MapeKDecision}
    (h : c.ceilingTrigger lib nEffCosine retryCount = some decision) : IsOverflow decision := by
  unfold MapeKController.ceilingTrigger at h
  dsimp only at h
  split at h
  · split at h
    · cases h
      exact ⟨_, _, _, rfl⟩
    · cases h
  · cases h

theorem IsOverflow.ne_retry {decision : MapeKDecision} (h : IsOverflow decision) :
    decision ≠ .retry := by
  obtain ⟨score, rationale, graftFirst, rfl⟩ := h
  exact MapeKDecision.noConfusion

theorem IsOverflow.ne_return {decision : MapeKDecision} (h : IsOverflow decision)
    (out : EngineOutput) : decision ≠ .return out := by
  obtain ⟨score, rationale, graftFirst, rfl⟩ := h
  exact MapeKDecision.noConfusion

theorem retryByPolicy_ne_return (lib : ControllerLib) (c : MapeKController) (retryCount : Nat)
    (filterRatio : ℚ) (out : EngineOutput) :
    (c.retryByPolicy lib retryCount filterRatio).1 ≠ .return out := by
  unfold MapeKController.retryByPolicy
  cases c.policyAction lib retryCount with
  | fail =>
      unfold MapeKController.applyRetryAction
      dsimp only
      split <;> exact MapeKDecision.noConfusion
  | _ => exact MapeKDecision.noConfusion

theorem handleZeroSurvival_ne_return (lib : ControllerLib) (c : MapeKController)
    (failureMode : Option FailureMode) (nEffCosine : Option ℚ) (tauValues : List ℚ)
    (retryCount : Nat) (filterRatio : ℚ) (out : EngineOutput) :
    (c.handleZeroSurvival lib failureMode nEffCosine tauValues retryCount filterRatio).1 ≠
      .return out := by
  unfold MapeKController.handleZeroSurvival
  dsimp only
  split
  · rename_i decision htrigger
    exact (integrationTrigger_overflow htrigger).ne_return out
  · split
    · rename_i decision htrigger
      exact (ceilingTrigger_overflow htrigger).ne_return out
    · exact retryByPolicy_ne_return lib _ retryCount filterRatio out

/-- A wave that was left early is never returned. -/
theorem handleExitReason_ne_return (lib : ControllerLib) (c : MapeKController)
    (reason : ExitReason) (retryCount : Nat) (filterRatio : ℚ) (out : EngineOutput) :
    (c.handleExitReason lib reason retryCount filterRatio).1 ≠ .return out := by
  unfold MapeKController.handleExitReason
  cases hprobe : MapeKController.probeRouting c retryCount with
  | some decision => exact (probeRouting_overflow hprobe).ne_return out
  | none =>
      cases reason with
      | multiplicationFailed tauValues failure =>
          exact retryByPolicy_ne_return lib _ retryCount 1 out
      | diversityFailed nEff tauValues => exact retryByPolicy_ne_return lib _ retryCount 1 out
      | zeroSurvival mode nEffCosine ratio tauValues events =>
          exact handleZeroSurvival_ne_return lib c mode nEffCosine tauValues retryCount
            filterRatio out
      | hallucinationDetected hint tauValues warning => exact MapeKDecision.noConfusion
      | oraclePostSelectionBlocked summary => exact MapeKDecision.noConfusion
      | oracleBlocked => exact MapeKDecision.noConfusion

/-- A resolved wave is retried by the tiered exit, or returned with its own text. -/
theorem decideResolved_cases (c : MapeKController) (merge : MergeOutput) (retryCount : Nat) :
    ((c.noteBudget.noteConvergence merge retryCount).tieredExitRetries merge retryCount = true ∧
      (c.decideResolved merge retryCount).1 = .retry) ∨
    ((c.noteBudget.noteConvergence merge retryCount).tieredExitRetries merge retryCount = false ∧
      ∃ out, (c.decideResolved merge retryCount).1 = .return out ∧
        out.resolvedOutput = merge.resolvedOutput) := by
  unfold MapeKController.decideResolved
  cases htiered : (c.noteBudget.noteConvergence merge retryCount).tieredExitRetries merge
      retryCount with
  | true => exact Or.inl ⟨rfl, by simp only [htiered, ↓reduceIte]⟩
  | false =>
      refine Or.inr ⟨rfl, ?_⟩
      simp only [htiered, Bool.false_eq_true, ↓reduceIte]
      exact ⟨_, rfl, rfl⟩

/-- Only a resolved wave is returned. -/
theorem decide_return {lib : ControllerLib} {c : MapeKController} {outcome : PipelineOutcome}
    {retryCount : Nat} {filterRatio : ℚ} {out : EngineOutput}
    (h : (c.decide lib outcome retryCount filterRatio).1 = .return out) :
    ∃ merge, outcome = .resolved merge ∧ out.resolvedOutput = merge.resolvedOutput := by
  obtain ⟨c', -, heq⟩ := decide_eq lib c outcome retryCount filterRatio
  rw [heq] at h
  cases hsignal : (c.checkInstability lib retryCount).1 with
  | some signal =>
      rw [hsignal] at h
      cases h
  | none =>
      rw [hsignal] at h
      cases outcome with
      | resolved merge =>
          rcases decideResolved_cases c' merge retryCount with
            ⟨-, hretry⟩ | ⟨-, out', hreturn, htext⟩
          · rw [hretry] at h
            cases h
          · rw [hreturn] at h
            cases h
            exact ⟨merge, rfl, htext⟩
      | fatal e => cases h
      | earlyExit reason =>
          exact absurd h (handleExitReason_ne_return lib c' reason retryCount filterRatio out)

/-! ## What an observation writes -/

/-- `c'` is `c` with a wave, or a part of it, folded in. -/
structure Observed (c c' : MapeKController) : Prop where
  eq : ∃ verifications warnings quality spread prevWave lastWave pruned best partialBest reasons
      compliance scores reasonHistory, c' =
    { c with
      allVerificationEvents := verifications
      allCorrelatedWarnings := warnings
      qualityHistory := quality
      tauSpreadFactor := spread
      prevWavePruned := prevWave
      lastWavePruned := lastWave
      allPruned := pruned
      globalBestProposal := best
      globalBestPartialProposal := partialBest
      globalBestConstraintReasons := reasons
      complianceScoreHistory := compliance
      perConstraintWaveScores := scores
      verifierReasonHistory := reasonHistory }

theorem Observed.refl (c : MapeKController) : Observed c c :=
  ⟨_, _, _, _, _, _, _, _, _, _, _, _, _, rfl⟩

theorem Observed.trans {c c' c'' : MapeKController} (h : Observed c c') (h' : Observed c' c'') :
    Observed c c'' := by
  obtain ⟨_, _, _, _, _, _, _, _, _, _, _, _, _, rfl⟩ := h.eq
  obtain ⟨_, _, _, _, _, _, _, _, _, _, _, _, _, rfl⟩ := h'.eq
  exact ⟨_, _, _, _, _, _, _, _, _, _, _, _, _, rfl⟩

theorem observed_foldl {α : Type} {f : MapeKController → α → MapeKController}
    (step : ∀ c a, Observed c (f c a)) (items : List α) (c : MapeKController) :
    Observed c (items.foldl f c) := by
  induction items generalizing c with
  | nil => exact Observed.refl c
  | cons a rest ih =>
      rw [List.foldl_cons]
      exact (step c a).trans (ih (f c a))

theorem observeProposal_observed (events : WaveEvents) (c : MapeKController)
    (entry : String × String) : Observed c (c.observeProposal events entry) := by
  unfold MapeKController.observeProposal
  split
  · exact Observed.refl c
  · split
    · exact Observed.refl c
    · dsimp only
      split <;> split <;> exact ⟨_, _, _, _, _, _, _, _, _, _, _, _, _, rfl⟩

theorem observeCompliance_observed (events : WaveEvents) (c : MapeKController) :
    Observed c (c.observeCompliance events) := by
  unfold MapeKController.observeCompliance
  split <;> exact ⟨_, _, _, _, _, _, _, _, _, _, _, _, _, rfl⟩

theorem observeConstraint_observed (c : MapeKController) (entry : String × List ℚ) :
    Observed c (c.observeConstraint entry) := ⟨_, _, _, _, _, _, _, _, _, _, _, _, _, rfl⟩

theorem observe_observed (c : MapeKController) (events : WaveEvents) (wave : Nat) :
    Observed c (c.observe events wave) := by
  unfold MapeKController.observe
  refine Observed.trans ?_ (observed_foldl observeConstraint_observed _ _)
  refine Observed.trans ?_ (observeCompliance_observed events _)
  refine Observed.trans ?_ (observed_foldl (observeProposal_observed events) _ _)
  exact ⟨_, _, _, _, _, _, _, _, _, _, _, _, _, rfl⟩

/-- An injection changes nothing but the context. -/
theorem injectWaveContinue_eq (c : MapeKController) (grounding mandate : Option String) :
    ∃ context, c.injectWaveContinue grounding mandate = { c with retryContext := context } := by
  unfold MapeKController.injectWaveContinue
  dsimp only
  split
  · exact ⟨c.retryContext, rfl⟩
  · exact ⟨_, rfl⟩

/-! ## Budget frame -/

/-- The fields the budget stop depends on are the same. -/
structure Keeps (c c' : MapeKController) : Prop where
  cfg : c'.cfg = c.cfg
  tried : c'.triedTopologies = c.triedTopologies
  tokens : c'.tokensUsed = c.tokensUsed
  flag : c'.budgetExhausted = c.budgetExhausted

theorem Keeps.refl (c : MapeKController) : Keeps c c := ⟨rfl, rfl, rfl, rfl⟩

theorem Keeps.trans {c c' c'' : MapeKController} (h : Keeps c c') (h' : Keeps c' c'') :
    Keeps c c'' :=
  ⟨h'.cfg.trans h.cfg, h'.tried.trans h.tried, h'.tokens.trans h.tokens, h'.flag.trans h.flag⟩

theorem Settled.keeps {c c' : MapeKController} (h : Settled c c') : Keeps c c' := by
  obtain ⟨cards, ambiguity, frozen, bypassed, rfl⟩ := h.eq
  exact ⟨rfl, rfl, rfl, rfl⟩

theorem observe_keeps (c : MapeKController) (events : WaveEvents) (wave : Nat) :
    Keeps c (c.observe events wave) := by
  obtain ⟨_, _, _, _, _, _, _, _, _, _, _, _, _, heq⟩ := (observe_observed c events wave).eq
  rw [heq]
  exact ⟨rfl, rfl, rfl, rfl⟩

theorem applyRetryAction_keeps (lib : ControllerLib) (c : MapeKController) (action : RetryAction)
    (retryCount : Nat) (filterRatio : ℚ) :
    Keeps c (c.applyRetryAction lib action retryCount filterRatio).2 := by
  obtain ⟨_, _, _, _, _, _, heq⟩ := applyRetryAction_eq lib c action retryCount filterRatio
  rw [heq]
  exact ⟨rfl, rfl, rfl, rfl⟩

theorem retryByPolicy_keeps (lib : ControllerLib) (c : MapeKController) (retryCount : Nat)
    (filterRatio : ℚ) : Keeps c (c.retryByPolicy lib retryCount filterRatio).2 :=
  applyRetryAction_keeps lib c _ retryCount filterRatio

theorem enterZeroSurvival_keeps (lib : ControllerLib) (c : MapeKController)
    (failureMode : Option FailureMode) (tauValues : List ℚ) :
    Keeps c (c.enterZeroSurvival lib failureMode tauValues) := by
  rcases failureMode with _ | mode
  · exact ⟨rfl, rfl, rfl, rfl⟩
  · cases mode <;> exact ⟨rfl, rfl, rfl, rfl⟩

theorem countZeroSurvival_keeps (c : MapeKController) (nEffCosine : Option ℚ) :
    Keeps c (c.countZeroSurvival nEffCosine) := ⟨rfl, rfl, rfl, rfl⟩

theorem noteMultiplicationFailure_keeps (c : MapeKController)
    (failure : MultiplicationConditionFailure) (tauValues : List ℚ) :
    Keeps c (c.noteMultiplicationFailure failure tauValues) := ⟨rfl, rfl, rfl, rfl⟩

theorem handleZeroSurvival_keeps (lib : ControllerLib) (c : MapeKController)
    (failureMode : Option FailureMode) (nEffCosine : Option ℚ) (tauValues : List ℚ)
    (retryCount : Nat) (filterRatio : ℚ) :
    Keeps c (c.handleZeroSurvival lib failureMode nEffCosine tauValues retryCount
      filterRatio).2 := by
  have hstart := enterZeroSurvival_keeps lib c failureMode tauValues
  unfold MapeKController.handleZeroSurvival
  dsimp only
  split
  · exact hstart
  · split
    · exact hstart
    · exact (hstart.trans (countZeroSurvival_keeps _ nEffCosine)).trans
        (retryByPolicy_keeps lib _ retryCount filterRatio)

theorem handleExitReason_keeps (lib : ControllerLib) (c : MapeKController) (reason : ExitReason)
    (retryCount : Nat) (filterRatio : ℚ) :
    Keeps c (c.handleExitReason lib reason retryCount filterRatio).2 := by
  unfold MapeKController.handleExitReason
  cases MapeKController.probeRouting c retryCount with
  | some decision => exact Keeps.refl c
  | none =>
      cases reason with
      | multiplicationFailed tauValues failure =>
          exact (noteMultiplicationFailure_keeps c failure tauValues).trans
            (retryByPolicy_keeps lib _ retryCount 1)
      | diversityFailed nEff tauValues =>
          exact (noteMultiplicationFailure_keeps c _ tauValues).trans
            (retryByPolicy_keeps lib _ retryCount 1)
      | zeroSurvival mode nEffCosine ratio tauValues events =>
          exact handleZeroSurvival_keeps lib c mode nEffCosine tauValues retryCount filterRatio
      | hallucinationDetected hint tauValues warning => exact ⟨rfl, rfl, rfl, rfl⟩
      | oraclePostSelectionBlocked summary => exact ⟨rfl, rfl, rfl, rfl⟩
      | oracleBlocked => exact Keeps.refl c

/-- A later state of the same run: the flag is never cleared and tokens are only
added, up to the end of the counter. -/
structure Later (c c' : MapeKController) : Prop where
  cfg : c'.cfg = c.cfg
  tried : c'.triedTopologies = c.triedTopologies
  tokens : c.tokensUsed < 2 ^ 64 → c.tokensUsed ≤ c'.tokensUsed ∧ c'.tokensUsed < 2 ^ 64
  flag : c.budgetExhausted = true → c'.budgetExhausted = true

theorem Keeps.later {c c' : MapeKController} (h : Keeps c c') : Later c c' := by
  refine ⟨h.cfg, h.tried, ?_, ?_⟩
  · intro hlt
    rw [h.tokens]
    exact ⟨le_rfl, hlt⟩
  · intro hflag
    rw [h.flag, hflag]

theorem Later.trans {c c' c'' : MapeKController} (h : Later c c') (h' : Later c' c'') :
    Later c c'' := by
  refine ⟨h'.cfg.trans h.cfg, h'.tried.trans h.tried, ?_, fun hflag => h'.flag (h.flag hflag)⟩
  intro hlt
  obtain ⟨hle, hlt'⟩ := h.tokens hlt
  obtain ⟨hle', hlt''⟩ := h'.tokens hlt'
  exact ⟨hle.trans hle', hlt''⟩

theorem noteBudget_later (c : MapeKController) : Later c c.noteBudget := by
  unfold MapeKController.noteBudget
  split
  · exact ⟨rfl, rfl, fun hlt => ⟨le_rfl, hlt⟩, fun _ => rfl⟩
  · exact (Keeps.refl c).later

theorem noteConvergence_keeps (c : MapeKController) (merge : MergeOutput) (retryCount : Nat) :
    Keeps c (c.noteConvergence merge retryCount) := by
  unfold MapeKController.noteConvergence
  split <;> exact ⟨rfl, rfl, rfl, rfl⟩

theorem noteTieredExit_keeps (c : MapeKController) (merge : MergeOutput) (retryCount : Nat) :
    Keeps c (c.noteTieredExit merge retryCount) := by
  unfold MapeKController.noteTieredExit
  split <;> exact ⟨rfl, rfl, rfl, rfl⟩

theorem acceptMerge_keeps (c : MapeKController) (merge : MergeOutput) :
    Keeps c (c.acceptMerge merge) := ⟨rfl, rfl, rfl, rfl⟩

theorem decideResolved_later (c : MapeKController) (merge : MergeOutput) (retryCount : Nat) :
    Later c (c.decideResolved merge retryCount).2 := by
  have hgates : Later c (c.noteBudget.noteConvergence merge retryCount) :=
    (noteBudget_later c).trans (noteConvergence_keeps _ merge retryCount).later
  unfold MapeKController.decideResolved
  dsimp only
  split
  · exact hgates
  · refine hgates.trans (Keeps.later ?_)
    exact (noteTieredExit_keeps _ merge retryCount).trans (acceptMerge_keeps _ merge)

theorem decide_later (lib : ControllerLib) (c : MapeKController) (outcome : PipelineOutcome)
    (retryCount : Nat) (filterRatio : ℚ) :
    Later c (c.decide lib outcome retryCount filterRatio).2 := by
  apply decide_relates (R := Later) Later.trans
  · intro cards events
    exact Keeps.later ⟨rfl, rfl, rfl, rfl⟩
  · intro c' hsettled
    exact hsettled.keeps.later
  · intro c' merge
    exact decideResolved_later c' merge retryCount
  · intro c' reason
    exact (handleExitReason_keeps lib c' reason retryCount filterRatio).later

/-! ## Runs of the controller -/

/-- The calls the engine makes on a controller. -/
inductive ControllerOp where
  | observe (events : WaveEvents) (waveIndex : Nat)
  | observeWaveTokens (waveTokenCost : Nat)
  | markOomAbort
  | setProbeResult (result : ComplexityProbeResult)
  | injectWaveContinue (grounding mandateOverride : Option String)
  | takePendingAmbiguityEvents
  | decide (outcome : PipelineOutcome) (retryCount : Nat) (filterRatio : ℚ)

def applyOp (lib : ControllerLib) (c : MapeKController) : ControllerOp → MapeKController
  | .observe events waveIndex => c.observe events waveIndex
  | .observeWaveTokens cost => c.observeWaveTokens cost
  | .markOomAbort => c.markOomAbort
  | .setProbeResult result => c.setProbeResult result
  | .injectWaveContinue grounding mandate => c.injectWaveContinue grounding mandate
  | .takePendingAmbiguityEvents => c.takePendingAmbiguityEvents.2
  | .decide outcome retryCount filterRatio =>
      (c.decide lib outcome retryCount filterRatio).2

def replay (lib : ControllerLib) (c : MapeKController) (ops : List ControllerOp) :
    MapeKController :=
  ops.foldl (applyOp lib) c

theorem applyOp_later (lib : ControllerLib) (c : MapeKController) (op : ControllerOp) :
    Later c (applyOp lib c op) := by
  cases op with
  | observe events waveIndex => exact (observe_keeps c events waveIndex).later
  | observeWaveTokens cost =>
      refine ⟨rfl, rfl, ?_, fun h => h⟩
      intro hlt
      simp only [applyOp, MapeKController.observeWaveTokens]
      omega
  | markOomAbort => exact ⟨rfl, rfl, fun hlt => ⟨le_rfl, hlt⟩, fun _ => rfl⟩
  | setProbeResult result => exact Keeps.later ⟨rfl, rfl, rfl, rfl⟩
  | injectWaveContinue grounding mandate =>
      obtain ⟨context, heq⟩ := injectWaveContinue_eq c grounding mandate
      rw [applyOp, heq]
      exact Keeps.later ⟨rfl, rfl, rfl, rfl⟩
  | takePendingAmbiguityEvents => exact Keeps.later ⟨rfl, rfl, rfl, rfl⟩
  | decide outcome retryCount filterRatio =>
      exact decide_later lib c outcome retryCount filterRatio

theorem replay_later (lib : ControllerLib) (c : MapeKController) (ops : List ControllerOp) :
    Later c (replay lib c ops) := by
  induction ops generalizing c with
  | nil => exact (Keeps.refl c).later
  | cons op rest ih => exact (applyOp_later lib c op).trans (ih (applyOp lib c op))

end ControlPlane.Source.MapeK
