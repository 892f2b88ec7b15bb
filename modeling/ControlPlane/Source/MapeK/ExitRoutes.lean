import ControlPlane.Source.MapeK.FixedParts

/-!
# Routes of an early exit

Everything `handle_exit_reason` can do with a wave that was left early, said once:
the probe routes it, a zero-survival wave sets off the integration or the ceiling
trigger, the retry policy is asked, or the exit brings its own context. What
routing reads is not touched by the detectors in front of it, nor by what an exit
records before it is routed.
-/
namespace ControlPlane.Source.MapeK

open Config Constraints Verification

/-! ## What an exit records before it is routed -/

/-- `c'` is `c` with the books of an exit kept. -/
structure Prepared (c c' : MapeKController) : Prop where
  eq : ∃ tauValuesTried failure modeCollapseCount tombstone nEff zeroSurvivalCount, c' =
    { c with
      tauValuesTried := tauValuesTried
      lastMultiplicationFailure := failure
      modeCollapseCount := modeCollapseCount
      pendingTombstone := tombstone
      lastWaveNEff := nEff
      zeroSurvivalCount := zeroSurvivalCount }

theorem enterZeroSurvival_prepared (lib : ControllerLib) (c : MapeKController)
    (mode : Option FailureMode) (tauValues : List ℚ) :
    Prepared c (c.enterZeroSurvival lib mode tauValues) := by
  cases mode with
  | none => exact ⟨_, _, _, _, _, _, rfl⟩
  | some mode => cases mode <;> exact ⟨_, _, _, _, _, _, rfl⟩

theorem Prepared.countZeroSurvival {c c' : MapeKController} (h : Prepared c c')
    (nEffCosine : Option ℚ) : Prepared c (c'.countZeroSurvival nEffCosine) := by
  obtain ⟨taus, failure, collapses, tombstone, nEff, zeros, rfl⟩ := h.eq
  exact ⟨_, _, _, _, _, _, rfl⟩

theorem noteMultiplicationFailure_prepared (c : MapeKController)
    (failure : MultiplicationConditionFailure) (tauValues : List ℚ) :
    Prepared c (c.noteMultiplicationFailure failure tauValues) := ⟨_, _, _, _, _, _, rfl⟩

theorem Prepared.taskPart {c c' : MapeKController} (h : Prepared c c') :
    c'.taskPart = c.taskPart := by
  obtain ⟨taus, failure, collapses, tombstone, nEff, zeros, rfl⟩ := h.eq
  rfl

theorem Prepared.integrationTrigger {c c' : MapeKController} (h : Prepared c c')
    (retryCount : Nat) : c'.integrationTrigger retryCount = c.integrationTrigger retryCount := by
  obtain ⟨taus, failure, collapses, tombstone, nEff, zeros, rfl⟩ := h.eq
  rfl

theorem Prepared.ceilingTrigger {c c' : MapeKController} (h : Prepared c c')
    (lib : ControllerLib) (nEffCosine : Option ℚ) (retryCount : Nat) :
    c'.ceilingTrigger lib nEffCosine retryCount = c.ceilingTrigger lib nEffCosine retryCount := by
  obtain ⟨taus, failure, collapses, tombstone, nEff, zeros, rfl⟩ := h.eq
  rfl

theorem Prepared.policyAction {c c' : MapeKController} (h : Prepared c c') (lib : ControllerLib)
    (retryCount : Nat) : c'.policyAction lib retryCount = c.policyAction lib retryCount := by
  obtain ⟨taus, failure, collapses, tombstone, nEff, zeros, rfl⟩ := h.eq
  rfl

/-! ## Routes -/

/-- The exit makes `handle_exit_reason` ask the retry policy. -/
def asksPolicy (lib : ControllerLib) (c : MapeKController) (retryCount : Nat)
    (reason : ExitReason) : Bool :=
  (c.probeRouting retryCount).isNone &&
    match reason with
    | .multiplicationFailed _ _ => true
    | .diversityFailed _ _ => true
    | .zeroSurvival _ nEffCosine _ _ _ =>
        (c.integrationTrigger retryCount).isNone &&
          (c.ceilingTrigger lib nEffCosine retryCount).isNone
    | _ => false

section Routes

variable (lib : ControllerLib) (c : MapeKController) (retryCount : Nat)

/-- Everything `handle_exit_reason` can do. -/
inductive ExitRoute : ExitReason → MapeKDecision × MapeKController → Prop where
  | probe {reason decision} (routed : c.probeRouting retryCount = some decision) :
      ExitRoute reason (decision, c)
  | integration {mode nEffCosine ratio tauValues events decision c'}
      (unrouted : c.probeRouting retryCount = none)
      (fires : c.integrationTrigger retryCount = some decision) (prepared : Prepared c c') :
      ExitRoute (.zeroSurvival mode nEffCosine ratio tauValues events) (decision, c')
  | ceiling {mode nEffCosine ratio tauValues events decision c'}
      (unrouted : c.probeRouting retryCount = none)
      (quiet : c.integrationTrigger retryCount = none)
      (fires : c.ceilingTrigger lib nEffCosine retryCount = some decision)
      (prepared : Prepared c c') :
      ExitRoute (.zeroSurvival mode nEffCosine ratio tauValues events) (decision, c')
  | policy {reason c'} (asks : asksPolicy lib c retryCount reason = true)
      (prepared : Prepared c c') (ratio : ℚ) :
      ExitRoute reason (c'.retryByPolicy lib retryCount ratio)
  | hallucination {hint tauValues warning} (unrouted : c.probeRouting retryCount = none) :
      ExitRoute (.hallucinationDetected hint tauValues warning)
        (.retry, MapeKController.runApplyOptimizer lib
          { c with
            allCorrelatedWarnings := c.allCorrelatedWarnings ++ [warning]
            retryContext := some hint
            tauValuesTried := c.tauValuesTried ++ [tauValues] } 1)
  | evicted {summary} (unrouted : c.probeRouting retryCount = none) :
      ExitRoute (.oraclePostSelectionBlocked summary)
        (.retry, MapeKController.runApplyOptimizer lib
          { c with
            allCorrelatedWarnings := c.allCorrelatedWarnings ++ [⟨1, 0, retryCount⟩]
            adapterRotationOffset := (c.adapterRotationOffset + 1) % 2 ^ 64
            retryContext := some summary } 1)
  | blocked (unrouted : c.probeRouting retryCount = none) :
      ExitRoute .oracleBlocked (.fail .maxRetriesExhausted c.takeRunContext, c)

theorem handleExitReason_route (reason : ExitReason) (filterRatio : ℚ) :
    ExitRoute lib c retryCount reason
      (c.handleExitReason lib reason retryCount filterRatio) := by
  unfold MapeKController.handleExitReason
  cases hprobe : c.probeRouting retryCount with
  | some decision => exact .probe hprobe
  | none =>
      cases reason with
      | multiplicationFailed tauValues failure =>
          have hasks : asksPolicy lib c retryCount (.multiplicationFailed tauValues failure) =
              true := by simp [asksPolicy, hprobe]
          exact .policy hasks (noteMultiplicationFailure_prepared c _ tauValues) 1
      | diversityFailed nEff tauValues =>
          have hasks : asksPolicy lib c retryCount (.diversityFailed nEff tauValues) = true := by
            simp [asksPolicy, hprobe]
          exact .policy hasks (noteMultiplicationFailure_prepared c _ tauValues) 1
      | zeroSurvival mode nEffCosine ratio tauValues events =>
          have hprepared := enterZeroSurvival_prepared lib c mode tauValues
          unfold MapeKController.handleZeroSurvival
          dsimp only
          rw [hprepared.integrationTrigger, hprepared.ceilingTrigger]
          cases hintegration : c.integrationTrigger retryCount with
          | some decision => exact .integration hprobe hintegration hprepared
          | none =>
              cases hceiling : c.ceilingTrigger lib nEffCosine retryCount with
              | some decision => exact .ceiling hprobe hintegration hceiling hprepared
              | none =>
                  refine .policy ?_ (hprepared.countZeroSurvival nEffCosine) filterRatio
                  simp [asksPolicy, hprobe, hintegration, hceiling]
      | hallucinationDetected hint tauValues warning => exact .hallucination hprobe
      | oraclePostSelectionBlocked summary => exact .evicted hprobe
      | oracleBlocked => exact .blocked hprobe

end Routes

/-! ## Behind the detectors -/

theorem Settled.probeRouting {c c' : MapeKController} (h : Settled c c') (retryCount : Nat) :
    c'.probeRouting retryCount = c.probeRouting retryCount := by
  obtain ⟨cards, ambiguity, frozen, bypassed, rfl⟩ := h.eq
  rfl

theorem Settled.integrationTrigger {c c' : MapeKController} (h : Settled c c')
    (retryCount : Nat) : c'.integrationTrigger retryCount = c.integrationTrigger retryCount := by
  obtain ⟨cards, ambiguity, frozen, bypassed, rfl⟩ := h.eq
  rfl

theorem Settled.ceilingTrigger {c c' : MapeKController} (h : Settled c c') (lib : ControllerLib)
    (nEffCosine : Option ℚ) (retryCount : Nat) :
    c'.ceilingTrigger lib nEffCosine retryCount = c.ceilingTrigger lib nEffCosine retryCount := by
  obtain ⟨cards, ambiguity, frozen, bypassed, rfl⟩ := h.eq
  rfl

theorem Settled.policyAction {c c' : MapeKController} (h : Settled c c') (lib : ControllerLib)
    (retryCount : Nat) : c'.policyAction lib retryCount = c.policyAction lib retryCount := by
  obtain ⟨cards, ambiguity, frozen, bypassed, rfl⟩ := h.eq
  rfl

theorem Settled.asksPolicy {c c' : MapeKController} (h : Settled c c') (lib : ControllerLib)
    (retryCount : Nat) (reason : ExitReason) :
    MapeK.asksPolicy lib c' retryCount reason = MapeK.asksPolicy lib c retryCount reason := by
  obtain ⟨cards, ambiguity, frozen, bypassed, rfl⟩ := h.eq
  rfl

/-- A decision on an early exit, once no constraint is reported unstable. -/
theorem decide_earlyExit {lib : ControllerLib} {c : MapeKController} {retryCount : Nat}
    (stable : (c.checkInstability lib retryCount).1 = none) (reason : ExitReason)
    (filterRatio : ℚ) :
    ∃ c', Settled c c' ∧ ExitRoute lib c' retryCount reason
      (c.decide lib (.earlyExit reason) retryCount filterRatio) := by
  obtain ⟨c', hsettled, heq⟩ := decide_eq lib c (.earlyExit reason) retryCount filterRatio
  refine ⟨c', hsettled, ?_⟩
  rw [heq, stable]
  exact handleExitReason_route lib c' retryCount reason filterRatio

end ControlPlane.Source.MapeK
