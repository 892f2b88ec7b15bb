import ControlPlane.Source.MapeK.ControllerRuns

/-!
# What a run of the controller never changes

`MapeKController::new` fixes the task: configuration, corpus data, base prompt
and, as the code stands, the list of tried topologies. No call on the controller
writes any of them, so every state of a run carries the task it was created for.
-/
namespace ControlPlane.Source.MapeK

open Config Constraints Verification

/-- The fields that only `new` writes. -/
structure TaskPart where
  cfg : H2AIConfig
  taskId : String
  nMaxCeiling : Nat
  cgMean : ℚ
  calibrationEnsemble : Option EnsembleCalibration
  triedTopologies : List TopologyKind
  systemContextWithRubric : String
  binaryChecks : List String
  constraintCheckOffsets : List (String × Nat × Nat)
  corpusSynthesisViable : Bool

def MapeKController.taskPart (c : MapeKController) : TaskPart :=
  { cfg := c.cfg
    taskId := c.taskId
    nMaxCeiling := c.nMaxCeiling
    cgMean := c.cgMean
    calibrationEnsemble := c.calibrationEnsemble
    triedTopologies := c.triedTopologies
    systemContextWithRubric := c.systemContextWithRubric
    binaryChecks := c.binaryChecks
    constraintCheckOffsets := c.constraintCheckOffsets
    corpusSynthesisViable := c.corpusSynthesisViable }

/-! ## Observation -/

theorem observe_taskPart (c : MapeKController) (events : WaveEvents) (wave : Nat) :
    (c.observe events wave).taskPart = c.taskPart := by
  obtain ⟨_, _, _, _, _, _, _, _, _, _, _, _, _, heq⟩ := (observe_observed c events wave).eq
  rw [heq]
  rfl

/-! ## Decision -/

theorem Settled.taskPart {c c' : MapeKController} (h : Settled c c') :
    c'.taskPart = c.taskPart := by
  obtain ⟨cards, ambiguity, frozen, bypassed, rfl⟩ := h.eq
  rfl

theorem applyRetryAction_taskPart (lib : ControllerLib) (c : MapeKController)
    (action : RetryAction) (retryCount : Nat) (filterRatio : ℚ) :
    (c.applyRetryAction lib action retryCount filterRatio).2.taskPart = c.taskPart := by
  obtain ⟨_, _, _, _, _, _, heq⟩ := applyRetryAction_eq lib c action retryCount filterRatio
  rw [heq]
  rfl

theorem enterZeroSurvival_taskPart (lib : ControllerLib) (c : MapeKController)
    (failureMode : Option FailureMode) (tauValues : List ℚ) :
    (c.enterZeroSurvival lib failureMode tauValues).taskPart = c.taskPart := by
  cases failureMode with
  | none => rfl
  | some mode => cases mode <;> rfl

theorem handleZeroSurvival_taskPart (lib : ControllerLib) (c : MapeKController)
    (failureMode : Option FailureMode) (nEffCosine : Option ℚ) (tauValues : List ℚ)
    (retryCount : Nat) (filterRatio : ℚ) :
    (c.handleZeroSurvival lib failureMode nEffCosine tauValues retryCount
      filterRatio).2.taskPart = c.taskPart := by
  have hstart := enterZeroSurvival_taskPart lib c failureMode tauValues
  unfold MapeKController.handleZeroSurvival
  dsimp only
  split
  · exact hstart
  · split
    · exact hstart
    · exact (applyRetryAction_taskPart lib _ _ retryCount filterRatio).trans hstart

theorem handleExitReason_taskPart (lib : ControllerLib) (c : MapeKController)
    (reason : ExitReason) (retryCount : Nat) (filterRatio : ℚ) :
    (c.handleExitReason lib reason retryCount filterRatio).2.taskPart = c.taskPart := by
  unfold MapeKController.handleExitReason
  cases MapeKController.probeRouting c retryCount with
  | some decision => rfl
  | none =>
      cases reason with
      | multiplicationFailed tauValues failure =>
          exact applyRetryAction_taskPart lib _ _ retryCount 1
      | diversityFailed nEff tauValues => exact applyRetryAction_taskPart lib _ _ retryCount 1
      | zeroSurvival mode nEffCosine ratio tauValues events =>
          exact handleZeroSurvival_taskPart lib c mode nEffCosine tauValues retryCount filterRatio
      | hallucinationDetected hint tauValues warning => rfl
      | oraclePostSelectionBlocked summary => rfl
      | oracleBlocked => rfl

theorem decideResolved_taskPart (c : MapeKController) (merge : MergeOutput) (retryCount : Nat) :
    (c.decideResolved merge retryCount).2.taskPart = c.taskPart := by
  obtain ⟨exhausted, gate, tee, taus, quality, heq⟩ := decideResolved_eq c merge retryCount
  rw [heq]
  rfl

theorem decide_taskPart (lib : ControllerLib) (c : MapeKController) (outcome : PipelineOutcome)
    (retryCount : Nat) (filterRatio : ℚ) :
    (c.decide lib outcome retryCount filterRatio).2.taskPart = c.taskPart := by
  apply decide_relates (R := fun c c' => c'.taskPart = c.taskPart) (fun h h' => h'.trans h)
  · intro cards events
    rfl
  · intro c' hsettled
    exact hsettled.taskPart
  · intro c' merge
    exact decideResolved_taskPart c' merge retryCount
  · intro c' reason
    exact handleExitReason_taskPart lib c' reason retryCount filterRatio

/-! ## Runs -/

theorem injectWaveContinue_taskPart (c : MapeKController) (grounding mandate : Option String) :
    (c.injectWaveContinue grounding mandate).taskPart = c.taskPart := by
  obtain ⟨context, heq⟩ := injectWaveContinue_eq c grounding mandate
  rw [heq]
  rfl

theorem applyOp_taskPart (lib : ControllerLib) (c : MapeKController) (op : ControllerOp) :
    (applyOp lib c op).taskPart = c.taskPart := by
  cases op with
  | observe events waveIndex => exact observe_taskPart c events waveIndex
  | injectWaveContinue grounding mandate =>
      exact injectWaveContinue_taskPart c grounding mandate
  | decide outcome retryCount filterRatio =>
      exact decide_taskPart lib c outcome retryCount filterRatio
  | _ => rfl

theorem taskPart_foldl {α : Type} {f : MapeKController → α → MapeKController}
    (step : ∀ c a, (f c a).taskPart = c.taskPart) (items : List α) (c : MapeKController) :
    (items.foldl f c).taskPart = c.taskPart := by
  induction items generalizing c with
  | nil => rfl
  | cons a rest ih =>
      rw [List.foldl_cons, ih (f c a)]
      exact step c a

/-- Every state of a run carries the task of its first state. -/
theorem replay_taskPart (lib : ControllerLib) (c : MapeKController) (ops : List ControllerOp) :
    (replay lib c ops).taskPart = c.taskPart := taskPart_foldl (applyOp_taskPart lib) ops c

end ControlPlane.Source.MapeK

/-!
# The controller's number of agents

`current_params.n_agents` is set by `new` and raised by the optimizer, which never
goes above the ceiling of the complexity phase. Observations and gates leave it.
-/
namespace ControlPlane.Source.MapeK

open Config Constraints Verification

/-- `c'` has the parameters of `c`, or more agents up to the ceiling of `c`. -/
structure GrowsBelow (c c' : MapeKController) : Prop where
  ceiling : c'.nMaxCeiling = c.nMaxCeiling
  agents : c'.currentParams.nAgents ≤ max c.currentParams.nAgents c.nMaxCeiling

theorem GrowsBelow.of_eq {c c' : MapeKController} (ceiling : c'.nMaxCeiling = c.nMaxCeiling)
    (params : c'.currentParams = c.currentParams) : GrowsBelow c c' := by
  refine ⟨ceiling, ?_⟩
  rw [params]
  exact le_max_left _ _

theorem GrowsBelow.trans {a b c : MapeKController} (h : GrowsBelow a b) (h' : GrowsBelow b c) :
    GrowsBelow a c := by
  refine ⟨h'.ceiling.trans h.ceiling, ?_⟩
  have hab := h.agents
  have hbc := h'.agents
  rw [h.ceiling] at hbc
  omega

/-! ## The optimizer -/

theorem suggestTurns_nAgents {predict : OptimizerParams → ℚ} {nUpper : Nat}
    {history : List QualityMeasurement} {current candidate : OptimizerParams}
    (h : suggestTurns predict nUpper history current = some candidate) :
    candidate.nAgents = current.nAgents := by
  unfold suggestTurns at h
  dsimp only at h
  split at h
  · split at h
    · cases h
      rfl
    · cases h
  · cases h

theorem suggestThreshold_nAgents {predict : OptimizerParams → ℚ} {cfg : H2AIConfig}
    {filterRatio : ℚ} {history : List QualityMeasurement} {current candidate : OptimizerParams}
    (h : suggestThreshold predict cfg filterRatio history current = some candidate) :
    candidate.nAgents = current.nAgents := by
  unfold suggestThreshold at h
  dsimp only at h
  split at h
  · split at h
    · cases h
      rfl
    · cases h
  · cases h

theorem suggestAgents_nAgents {nUpper : Nat} {history : List QualityMeasurement}
    {current candidate : OptimizerParams}
    (h : suggestAgents nUpper history current = some candidate) : candidate.nAgents ≤ nUpper := by
  unfold suggestAgents at h
  dsimp only at h
  split at h
  · split at h
    · cases h
      assumption
    · cases h
  · cases h

/-- The first option that applies keeps the number of agents, or raises it up to
`nUpper`. -/
theorem firstOption_nAgents (predict : OptimizerParams → ℚ) (cfg : H2AIConfig) (filterRatio : ℚ)
    (nUpper : Nat) (history : List QualityMeasurement) (current : OptimizerParams) :
    (((suggestTurns predict nUpper history current).or
      ((suggestThreshold predict cfg filterRatio history current).or
        (suggestAgents nUpper history current))).getD current).nAgents ≤
      max current.nAgents nUpper := by
  cases hturns : suggestTurns predict nUpper history current with
  | some candidate => simp [suggestTurns_nAgents hturns]
  | none =>
      cases hthreshold : suggestThreshold predict cfg filterRatio history current with
      | some candidate => simp [suggestThreshold_nAgents hthreshold]
      | none =>
          cases hagents : suggestAgents nUpper history current with
          | some candidate => simp [suggestAgents_nAgents hagents]
          | none => simp

/-- One agent more is only suggested below the ceiling. -/
theorem suggest_nAgents (predictQ : PredictQ) (cfg : H2AIConfig) (input : SuggestInput)
    (filterRatio : ℚ) (history : List QualityMeasurement) (current : OptimizerParams) :
    (suggest predictQ cfg input filterRatio history current).nAgents ≤
      max current.nAgents input.nMaxCeiling := by
  unfold suggest
  dsimp only
  refine (firstOption_nAgents _ cfg filterRatio _ history current).trans (max_le_max le_rfl ?_)
  split
  · exact min_le_right _ _
  · exact le_rfl

theorem runApplyOptimizer_grows {lib : ControllerLib} {c c' : MapeKController} {filterRatio : ℚ}
    (h : GrowsBelow c c') : GrowsBelow c (c'.runApplyOptimizer lib filterRatio) := by
  refine h.trans ⟨rfl, ?_⟩
  unfold MapeKController.runApplyOptimizer
  dsimp only
  cases c'.calibrationEnsemble with
  | none => exact suggest_nAgents ..
  | some ec => exact suggest_nAgents ..

/-! ## Observation -/

theorem observe_params (c : MapeKController) (events : WaveEvents) (wave : Nat) :
    (c.observe events wave).currentParams = c.currentParams := by
  obtain ⟨_, _, _, _, _, _, _, _, _, _, _, _, _, heq⟩ := (observe_observed c events wave).eq
  rw [heq]

theorem injectWaveContinue_params (c : MapeKController) (grounding mandate : Option String) :
    (c.injectWaveContinue grounding mandate).currentParams = c.currentParams := by
  obtain ⟨context, heq⟩ := injectWaveContinue_eq c grounding mandate
  rw [heq]

/-! ## Decision -/

theorem Settled.params {c c' : MapeKController} (h : Settled c c') :
    c'.currentParams = c.currentParams := by
  obtain ⟨cards, ambiguity, frozen, bypassed, rfl⟩ := h.eq
  rfl

theorem applyRetryAction_grows (lib : ControllerLib) (c : MapeKController) (action : RetryAction)
    (retryCount : Nat) (filterRatio : ℚ) :
    GrowsBelow c (c.applyRetryAction lib action retryCount filterRatio).2 := by
  cases action with
  | fail =>
      unfold MapeKController.applyRetryAction
      dsimp only
      split <;> exact .of_eq rfl rfl
  | retry topology => exact runApplyOptimizer_grows (.of_eq rfl rfl)
  | retryWithTauReduction topology tauFactor => exact runApplyOptimizer_grows (.of_eq rfl rfl)
  | retryWithHints topology hints => exact runApplyOptimizer_grows (.of_eq rfl rfl)
  | retryWithTargets topology targets => exact runApplyOptimizer_grows (.of_eq rfl rfl)

theorem enterZeroSurvival_params (lib : ControllerLib) (c : MapeKController)
    (failureMode : Option FailureMode) (tauValues : List ℚ) :
    (c.enterZeroSurvival lib failureMode tauValues).currentParams = c.currentParams := by
  cases failureMode with
  | none => rfl
  | some mode => cases mode <;> rfl

theorem handleZeroSurvival_grows (lib : ControllerLib) (c : MapeKController)
    (failureMode : Option FailureMode) (nEffCosine : Option ℚ) (tauValues : List ℚ)
    (retryCount : Nat) (filterRatio : ℚ) :
    GrowsBelow c (c.handleZeroSurvival lib failureMode nEffCosine tauValues retryCount
      filterRatio).2 := by
  have hstart : GrowsBelow c (c.enterZeroSurvival lib failureMode tauValues) :=
    .of_eq (congrArg TaskPart.nMaxCeiling (enterZeroSurvival_taskPart lib c failureMode tauValues))
      (enterZeroSurvival_params lib c failureMode tauValues)
  unfold MapeKController.handleZeroSurvival
  dsimp only
  split
  · exact hstart
  · split
    · exact hstart
    · have hcount : GrowsBelow (c.enterZeroSurvival lib failureMode tauValues)
          ((c.enterZeroSurvival lib failureMode tauValues).countZeroSurvival nEffCosine) :=
        .of_eq rfl rfl
      exact (hstart.trans hcount).trans (applyRetryAction_grows lib _ _ retryCount filterRatio)

theorem handleExitReason_grows (lib : ControllerLib) (c : MapeKController)
    (reason : ExitReason) (retryCount : Nat) (filterRatio : ℚ) :
    GrowsBelow c (c.handleExitReason lib reason retryCount filterRatio).2 := by
  have keep : GrowsBelow c c := .of_eq rfl rfl
  unfold MapeKController.handleExitReason
  cases MapeKController.probeRouting c retryCount with
  | some decision => exact keep
  | none =>
      cases reason with
      | multiplicationFailed tauValues failure =>
          have hnote : GrowsBelow c (c.noteMultiplicationFailure failure tauValues) :=
            .of_eq rfl rfl
          exact hnote.trans (applyRetryAction_grows lib _ _ retryCount 1)
      | diversityFailed nEff tauValues =>
          have hnote : GrowsBelow c (c.noteMultiplicationFailure
              (.insufficientPoolDiversity nEff c.cfg.diversityThreshold) tauValues) :=
            .of_eq rfl rfl
          exact hnote.trans (applyRetryAction_grows lib _ _ retryCount 1)
      | zeroSurvival mode nEffCosine ratio tauValues events =>
          exact handleZeroSurvival_grows lib c mode nEffCosine tauValues retryCount filterRatio
      | hallucinationDetected hint tauValues warning =>
          exact runApplyOptimizer_grows (.of_eq rfl rfl)
      | oraclePostSelectionBlocked summary =>
          exact runApplyOptimizer_grows (.of_eq rfl rfl)
      | oracleBlocked => exact keep

theorem decideResolved_params (c : MapeKController) (merge : MergeOutput) (retryCount : Nat) :
    (c.decideResolved merge retryCount).2.currentParams = c.currentParams := by
  obtain ⟨exhausted, gate, tee, taus, quality, heq⟩ := decideResolved_eq c merge retryCount
  rw [heq]

theorem decide_grows (lib : ControllerLib) (c : MapeKController) (outcome : PipelineOutcome)
    (retryCount : Nat) (filterRatio : ℚ) :
    GrowsBelow c (c.decide lib outcome retryCount filterRatio).2 := by
  apply decide_relates (R := GrowsBelow) GrowsBelow.trans
  · intro cards events
    exact .of_eq rfl rfl
  · intro c' hsettled
    exact .of_eq (congrArg TaskPart.nMaxCeiling hsettled.taskPart) hsettled.params
  · intro c' merge
    refine .of_eq ?_ (decideResolved_params c' merge retryCount)
    exact congrArg TaskPart.nMaxCeiling (decideResolved_taskPart c' merge retryCount)
  · intro c' reason
    exact handleExitReason_grows lib c' reason retryCount filterRatio

/-! ## Runs -/

theorem applyOp_grows (lib : ControllerLib) (c : MapeKController) (op : ControllerOp) :
    GrowsBelow c (applyOp lib c op) := by
  have ceiling : (applyOp lib c op).nMaxCeiling = c.nMaxCeiling :=
    congrArg TaskPart.nMaxCeiling (applyOp_taskPart lib c op)
  cases op with
  | observe events waveIndex => exact .of_eq ceiling (observe_params c events waveIndex)
  | injectWaveContinue grounding mandate =>
      exact .of_eq ceiling (injectWaveContinue_params c grounding mandate)
  | decide outcome retryCount filterRatio => exact decide_grows lib c outcome retryCount filterRatio
  | _ => exact .of_eq rfl rfl

theorem replay_grows (lib : ControllerLib) (c : MapeKController) (ops : List ControllerOp) :
    GrowsBelow c (replay lib c ops) := by
  induction ops generalizing c with
  | nil => exact .of_eq rfl rfl
  | cons op rest ih => exact (applyOp_grows lib c op).trans (ih (applyOp lib c op))

end ControlPlane.Source.MapeK
