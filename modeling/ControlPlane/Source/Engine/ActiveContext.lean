import ControlPlane.Source.Engine.Pipeline
import ControlPlane.Source.MapeK.ExitRoutes

/-!
# The active context of a wave

Embeds how the prompt context of the next wave comes about: `params` with
`build_budget_hint_if_needed` and `apply_induction_result` of
`crates/h2ai-orchestrator/src/mape_k.rs`, the first lines of
`ExecutionPipeline::run`, and the hint of `phases/hallucination.rs`. A retry
context stands in for the bootstrap context whenever there is one. Behind the
definitions: which decisions write the retry context, and what they write.
-/
namespace ControlPlane.Source.Engine

open Constraints Verification Config MapeK

/-! ## Parts of a text -/

/-- `part` occurs in `text`. -/
def Contains (text part : String) : Prop := part.toList <:+: text.toList

theorem contains_self (text : String) : Contains text text := List.infix_rfl

theorem Contains.append_right {text part : String} (h : Contains text part) (after : String) :
    Contains (text ++ after) part := by
  unfold Contains
  rw [String.toList_append]
  exact h.trans (List.prefix_append _ _).isInfix

theorem Contains.append_left {text part : String} (h : Contains text part) (before : String) :
    Contains (before ++ text) part := by
  unfold Contains
  rw [String.toList_append]
  exact h.trans (List.suffix_append _ _).isInfix

/-- A part is no longer than its text. -/
theorem Contains.length_le {text part : String} (h : Contains text part) :
    part.toList.length ≤ text.toList.length := List.IsInfix.length_le h

/-! ## Budget hint -/

/-- The fields of `CostGuardConfig` that only the hint reads. -/
structure BudgetHintConfig where
  budgetPromptInjectionEnabled : Bool
  budgetInjectionWarnFraction : ℚ
  budgetInjectionMaxComplexity : Nat
  deriving DecidableEq, Repr

/-- `CostGuardConfig::remaining`, an `i64`. -/
def remainingTokens (cfg : CostGuardConfig) (tokensUsed : Nat) : ℤ :=
  if cfg.budgetTokensPerTask = 0 then 2 ^ 63 - 1
  else Int.bmod ((cfg.budgetTokensPerTask : ℤ) - tokensUsed) (2 ^ 64)

/-- `build_budget_hint_if_needed`. -/
def buildBudgetHintIfNeeded (cfg : CostGuardConfig) (hint : BudgetHintConfig)
    (tokensUsed complexity : Nat) : Option String :=
  if cfg.enabled = false ∨ hint.budgetPromptInjectionEnabled = false then none
  else if hint.budgetInjectionMaxComplexity < complexity then none
  else if cfg.fractionUsed tokensUsed < hint.budgetInjectionWarnFraction ∨
      85 / 100 ≤ cfg.fractionUsed tokensUsed then none
  else some ("\n\n[Token budget: approximately " ++
    toString (max (remainingTokens cfg tokensUsed) 0) ++ " tokens remain for this response. " ++
    "Prioritize the most critical compliance findings. " ++
    "State your conclusion first, then minimum supporting evidence. " ++
    "Omit elaboration, preamble, and redundant citations.]")

/-! ## The context of a wave -/

/-- What the pipeline has next to the controller's parameters. -/
structure ContextSettings where
  /-- `bootstrap.system_context`. -/
  systemContext : String
  budgetHint : BudgetHintConfig

/-- `budget_hint` of the wave parameters. -/
def budgetHint (settings : ContextSettings) (c : MapeKController) : Option String :=
  buildBudgetHintIfNeeded c.cfg.costGuard settings.budgetHint c.tokensUsed
    ((c.probeResult.map (·.complexity)).getD 0)

/-- The `active_ctx` that `ExecutionPipeline::run` hands to generation. -/
def activeContext (settings : ContextSettings) (c : MapeKController) : String :=
  c.retryContext.getD settings.systemContext ++ (budgetHint settings c).getD ""

/-! ## Induction hints -/

structure RetryHintPattern where
  hintText : String
  successCount : Nat
  attemptCount : Nat
  deriving DecidableEq, Repr

/-- `success_rate`, with a Beta(2,8) prior. -/
def RetryHintPattern.successRate (p : RetryHintPattern) : ℚ :=
  ((p.successCount : ℚ) + 2) / ((p.attemptCount : ℚ) + 10)

def inductionHint (top : RetryHintPattern) : String :=
  "\n[INDUCTION HINT — success_rate=" ++ fixedText 2 top.successRate ++ "]: " ++ top.hintText ++
    "\n"

/-- `apply_induction_result`: the first pattern is appended to the retry context. -/
def applyInductionResult (c : MapeKController) (patterns : List RetryHintPattern) :
    MapeKController :=
  match patterns with
  | top :: _ => { c with retryContext := some (c.retryContext.getD "" ++ inductionHint top) }
  | [] => c

/-! ## Texts of the exits -/

/-- `retry_context_hint` of `phases::hallucination::run`. -/
def hallucinationContext (systemContextWithRubric : String) (retryCount : Nat) (hint : String) :
    String :=
  systemContextWithRubric ++ "\n\n--- CORRELATED ENSEMBLE DETECTED (iteration " ++
    toString retryCount ++ ") ---\n" ++ hint ++ "\n---"

/-- An outcome with the texts the phases give it. A hallucination exit is named by
its grounding hint. -/
def issued (c : MapeKController) (retryCount : Nat) : PipelineOutcome → PipelineOutcome
  | .earlyExit (.hallucinationDetected hint tauValues warning) =>
      .earlyExit (.hallucinationDetected
        (hallucinationContext c.systemContextWithRubric retryCount hint) tauValues warning)
  | .earlyExit (.oraclePostSelectionBlocked _) =>
      .earlyExit (.oraclePostSelectionBlocked (evictedWinnerSummary c.taskId))
  | outcome => outcome

/-! ## What a decision writes -/

/-- The text of a retry that the policy asks for. -/
def policyText (lib : ControllerLib) (c : MapeKController) (retryCount : Nat) : Option String :=
  match c.policyAction lib retryCount with
  | .retryWithHints _ hints =>
      if hints.isEmpty then none else some (c.hintContext retryCount hints)
  | .retryWithTargets _ targets =>
      if targets.isEmpty then none
      else some (buildRepairContext (c.repairInput lib targets retryCount))
  | _ => none

/-- The exit is looked at: no constraint is unstable and the probe does not route it. -/
def exitRouted (lib : ControllerLib) (c : MapeKController) (retryCount : Nat) : Bool :=
  (c.checkInstability lib retryCount).1.isNone && (c.probeRouting retryCount).isNone

/-- The retry context that a decision on the wave writes, if it writes one. -/
def writtenContext (lib : ControllerLib) (c : MapeKController) (retryCount : Nat) :
    PipelineOutcome → Option String
  | .earlyExit reason =>
      if exitRouted lib c retryCount then
        match reason with
        | .hallucinationDetected hint _ _ => some hint
        | .oraclePostSelectionBlocked summary => some summary
        | reason => if asksPolicy lib c retryCount reason then policyText lib c retryCount else none
      else none
  | _ => none

theorem retryByPolicy_context (lib : ControllerLib) (c : MapeKController) (retryCount : Nat)
    (ratio : ℚ) :
    (c.retryByPolicy lib retryCount ratio).2.retryContext =
      (policyText lib c retryCount).or c.retryContext := by
  unfold MapeKController.retryByPolicy policyText
  cases c.policyAction lib retryCount with
  | retry topology => rfl
  | retryWithTauReduction topology factor => rfl
  | retryWithHints topology hints =>
      cases hints with
      | nil => rfl
      | cons hint rest => rfl
  | retryWithTargets topology targets =>
      cases targets with
      | nil => rfl
      | cons target rest => rfl
  | fail =>
      unfold MapeKController.applyRetryAction
      dsimp only
      split <;> rfl

theorem policyText_retry {lib : ControllerLib} {c : MapeKController} {retryCount : Nat}
    {text : String} (h : policyText lib c retryCount = some text) (ratio : ℚ) :
    (c.retryByPolicy lib retryCount ratio).1 = .retry := by
  unfold policyText at h
  unfold MapeKController.retryByPolicy
  cases haction : c.policyAction lib retryCount with
  | fail =>
      rw [haction] at h
      cases h
  | _ => rfl

theorem prepared_policyText {c c' : MapeKController} (h : Prepared c c') (lib : ControllerLib)
    (retryCount : Nat) : policyText lib c' retryCount = policyText lib c retryCount := by
  obtain ⟨taus, failure, collapses, tombstone, nEff, zeros, rfl⟩ := h.eq
  rfl

theorem settled_policyText {c c' : MapeKController} (h : Settled c c') (lib : ControllerLib)
    (retryCount : Nat) : policyText lib c' retryCount = policyText lib c retryCount := by
  obtain ⟨cards, ambiguity, frozen, bypassed, rfl⟩ := h.eq
  rfl

theorem prepared_retryContext {c c' : MapeKController} (h : Prepared c c') :
    c'.retryContext = c.retryContext := by
  obtain ⟨taus, failure, collapses, tombstone, nEff, zeros, rfl⟩ := h.eq
  rfl

theorem settled_retryContext {c c' : MapeKController} (h : Settled c c') :
    c'.retryContext = c.retryContext := by
  obtain ⟨cards, ambiguity, frozen, bypassed, rfl⟩ := h.eq
  rfl

theorem decideResolved_context (c : MapeKController) (merge : MergeOutput) (retryCount : Nat) :
    (c.decideResolved merge retryCount).2.retryContext = c.retryContext := by
  obtain ⟨exhausted, gate, tee, taus, quality, heq⟩ := decideResolved_eq c merge retryCount
  rw [heq]

/-- A decision writes the retry context of the wave, or leaves it as it is. -/
theorem decide_context (lib : ControllerLib) (c : MapeKController) (outcome : PipelineOutcome)
    (retryCount : Nat) (filterRatio : ℚ) :
    (c.decide lib outcome retryCount filterRatio).2.retryContext =
      (writtenContext lib c retryCount outcome).or c.retryContext := by
  cases hsignal : (c.checkInstability lib retryCount).1 with
  | some signal =>
      obtain ⟨c', -, heq⟩ := decide_eq lib c outcome retryCount filterRatio
      obtain ⟨cards, events, hinst⟩ := checkInstability_eq lib c retryCount
      have hwritten : writtenContext lib c retryCount outcome = none := by
        cases outcome <;> simp [writtenContext, exitRouted, hsignal]
      rw [heq, hsignal, hwritten, hinst]
      rfl
  | none =>
      cases outcome with
      | resolved merge =>
          obtain ⟨c', hsettled, heq⟩ := decide_eq lib c (.resolved merge) retryCount filterRatio
          rw [heq, hsignal]
          exact (decideResolved_context c' merge retryCount).trans (settled_retryContext hsettled)
      | fatal e =>
          obtain ⟨c', hsettled, heq⟩ := decide_eq lib c (.fatal e) retryCount filterRatio
          rw [heq, hsignal]
          exact settled_retryContext hsettled
      | earlyExit reason =>
          obtain ⟨c', hsettled, hroute⟩ := decide_earlyExit hsignal reason filterRatio
          have hcontext := settled_retryContext hsettled
          have hprobe := hsettled.probeRouting retryCount
          generalize c.decide lib (.earlyExit reason) retryCount filterRatio = answer at hroute
          cases hroute with
          | probe routed =>
              rw [hprobe] at routed
              simp [writtenContext, exitRouted, routed, hcontext]
          | integration unrouted fires prepared =>
              rw [hsettled.integrationTrigger] at fires
              simp [writtenContext, asksPolicy, fires, prepared_retryContext prepared, hcontext]
          | ceiling unrouted quiet fires prepared =>
              rw [hsettled.ceilingTrigger] at fires
              simp [writtenContext, asksPolicy, fires, prepared_retryContext prepared, hcontext]
          | policy asks prepared ratio =>
              rw [hsettled.asksPolicy] at asks
              rw [retryByPolicy_context, prepared_policyText prepared, settled_policyText hsettled,
                prepared_retryContext prepared, hcontext]
              have hrouted : exitRouted lib c retryCount = true := by
                simp only [asksPolicy, Bool.and_eq_true] at asks
                simp [exitRouted, hsignal, asks.1]
              cases reason with
              | hallucinationDetected hint tauValues warning => simp [asksPolicy] at asks
              | oraclePostSelectionBlocked summary => simp [asksPolicy] at asks
              | _ => simp [writtenContext, hrouted, asks]
          | hallucination unrouted =>
              rw [hprobe] at unrouted
              simp [writtenContext, exitRouted, hsignal, unrouted,
                MapeKController.runApplyOptimizer]
          | evicted unrouted =>
              rw [hprobe] at unrouted
              simp [writtenContext, exitRouted, hsignal, unrouted,
                MapeKController.runApplyOptimizer]
          | blocked unrouted => simp [writtenContext, asksPolicy, hcontext]

/-- A decision that writes the retry context is a retry. -/
theorem decide_written_retry {lib : ControllerLib} {c : MapeKController}
    {outcome : PipelineOutcome} {retryCount : Nat} {text : String}
    (h : writtenContext lib c retryCount outcome = some text) (filterRatio : ℚ) :
    (c.decide lib outcome retryCount filterRatio).1 = .retry := by
  cases outcome with
  | resolved merge => cases h
  | fatal e => cases h
  | earlyExit reason =>
      have hrouted : exitRouted lib c retryCount = true := by
        by_contra hnot
        simp [writtenContext, hnot] at h
      have hstable := hrouted
      simp only [exitRouted, Bool.and_eq_true, Option.isNone_iff_eq_none] at hstable
      obtain ⟨c', hsettled, hroute⟩ := decide_earlyExit hstable.1 reason filterRatio
      have hprobe := hsettled.probeRouting retryCount
      rw [hstable.2] at hprobe
      generalize c.decide lib (.earlyExit reason) retryCount filterRatio = answer at hroute
      cases hroute with
      | probe routed =>
          rw [hprobe] at routed
          cases routed
      | integration unrouted fires prepared =>
          rw [hsettled.integrationTrigger] at fires
          simp [writtenContext, asksPolicy, fires] at h
      | ceiling unrouted quiet fires prepared =>
          rw [hsettled.ceilingTrigger] at fires
          simp [writtenContext, asksPolicy, fires] at h
      | policy asks prepared ratio =>
          rw [hsettled.asksPolicy] at asks
          have htext : policyText lib c retryCount = some text := by
            cases reason with
            | hallucinationDetected hint tauValues warning => simp [asksPolicy] at asks
            | oraclePostSelectionBlocked summary => simp [asksPolicy] at asks
            | _ => simpa [writtenContext, hrouted, asks] using h
          rw [← settled_policyText hsettled, ← prepared_policyText prepared] at htext
          exact policyText_retry htext ratio
      | hallucination unrouted => rfl
      | evicted unrouted => rfl
      | blocked unrouted => simp [writtenContext, asksPolicy] at h

/-! ## The budget hint behind a decision -/

/-- What the budget hint is computed from. -/
def hintPart (c : MapeKController) : H2AIConfig × Nat × Option ComplexityProbeResult :=
  (c.cfg, c.tokensUsed, c.probeResult)

theorem applyRetryAction_hintPart (lib : ControllerLib) (c : MapeKController)
    (action : RetryAction) (retryCount : Nat) (ratio : ℚ) :
    hintPart (c.applyRetryAction lib action retryCount ratio).2 = hintPart c := by
  obtain ⟨_, _, _, _, _, _, heq⟩ := applyRetryAction_eq lib c action retryCount ratio
  rw [heq]
  rfl

theorem decideResolved_hintPart (c : MapeKController) (merge : MergeOutput) (retryCount : Nat) :
    hintPart (c.decideResolved merge retryCount).2 = hintPart c := by
  obtain ⟨exhausted, gate, tee, taus, quality, heq⟩ := decideResolved_eq c merge retryCount
  rw [heq]
  rfl

theorem settled_hintPart {c c' : MapeKController} (h : Settled c c') :
    hintPart c' = hintPart c := by
  obtain ⟨cards, ambiguity, frozen, bypassed, rfl⟩ := h.eq
  rfl

theorem prepared_hintPart {c c' : MapeKController} (h : Prepared c c') :
    hintPart c' = hintPart c := by
  obtain ⟨taus, failure, collapses, tombstone, nEff, zeros, rfl⟩ := h.eq
  rfl

theorem exitRoute_hintPart {lib : ControllerLib} {c : MapeKController} {retryCount : Nat}
    {reason : ExitReason} {answer : MapeKDecision × MapeKController}
    (h : ExitRoute lib c retryCount reason answer) : hintPart answer.2 = hintPart c := by
  cases h with
  | probe routed => rfl
  | integration unrouted fires prepared => exact prepared_hintPart prepared
  | ceiling unrouted quiet fires prepared => exact prepared_hintPart prepared
  | policy asks prepared ratio =>
      exact (applyRetryAction_hintPart lib _ _ retryCount ratio).trans (prepared_hintPart prepared)
  | hallucination unrouted => rfl
  | evicted unrouted => rfl
  | blocked unrouted => rfl

theorem decide_hintPart (lib : ControllerLib) (c : MapeKController) (outcome : PipelineOutcome)
    (retryCount : Nat) (filterRatio : ℚ) :
    hintPart (c.decide lib outcome retryCount filterRatio).2 = hintPart c := by
  apply decide_relates (R := fun c c' => hintPart c' = hintPart c) (fun h h' => h'.trans h)
  · intro cards events
    rfl
  · intro c' hsettled
    exact settled_hintPart hsettled
  · intro c' merge
    exact decideResolved_hintPart c' merge retryCount
  · intro c' reason
    exact exitRoute_hintPart (handleExitReason_route lib c' retryCount reason filterRatio)

/-- A decision leaves the budget hint of the next wave as it stands. -/
theorem decide_budgetHint (settings : ContextSettings) (lib : ControllerLib)
    (c : MapeKController) (outcome : PipelineOutcome) (retryCount : Nat) (filterRatio : ℚ) :
    budgetHint settings (c.decide lib outcome retryCount filterRatio).2 =
      budgetHint settings c := by
  have hpart := decide_hintPart lib c outcome retryCount filterRatio
  simp only [hintPart, Prod.mk.injEq] at hpart
  unfold budgetHint
  rw [hpart.1, hpart.2.1, hpart.2.2]

end ControlPlane.Source.Engine
