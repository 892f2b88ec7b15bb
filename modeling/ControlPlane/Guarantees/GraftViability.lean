import ControlPlane.Source.Engine.RunOutcomes

/-!
# Grafting and its corpus

A complexity overflow with `graft_first` sends the run to the synthesis wave, which
needs binary checks. The probe route and the frontier route look at
`corpus_synthesis_viable`, and isolation evidence cannot exist without checks; the
compliance plateau and the ceiling detector ask for a graft on any corpus. Exactly
these two bring a run to the branch of `run_offline` that reports a bug.
-/
namespace ControlPlane.Guarantees.GraftViability

open Source Source.MapeK Source.Config Source.Constraints Source.Engine Lib

/-! ## The two triggers that do not look at the corpus -/

/-- The integration wave is set off by the compliance plateau alone. -/
def plateauFires (c : MapeKController) (retryCount : Nat) : Bool :=
  c.cfg.integrationWave.enabled &&
    MapeKController.isCompliancePlateau c.complianceScoreHistory retryCount
      c.cfg.integrationWave.plateauThreshold

/-- The ceiling detector fires early enough to ask for a graft. -/
def ceilingGrafts (lib : ControllerLib) (c : MapeKController) (nEffCosine : Option ℚ)
    (retryCount : Nat) : Bool :=
  (c.ceilingTrigger lib nEffCosine retryCount).isSome && decide (retryCount < 2)

/-- The outcome is a zero-survival exit that one of the two triggers answers. -/
def uncheckedGraft (lib : ControllerLib) (c : MapeKController) (retryCount : Nat) :
    PipelineOutcome → Bool
  | .earlyExit (.zeroSurvival _ nEffCosine _ _ _) =>
      (c.checkInstability lib retryCount).1.isNone && (c.probeRouting retryCount).isNone &&
        (plateauFires c retryCount || ceilingGrafts lib c nEffCosine retryCount)
  | _ => false

/-- The decision asks for a graft. -/
def AsksGraft (decision : MapeKDecision) : Prop :=
  ∃ score rationale, decision = .complexityOverflow score rationale true

/-! ## One decision -/

theorem probeRouting_graft {c : MapeKController} {retryCount : Nat} {decision : MapeKDecision}
    (routed : c.probeRouting retryCount = some decision) (graft : AsksGraft decision) :
    c.corpusSynthesisViable = true := by
  obtain ⟨score, rationale, rfl⟩ := graft
  unfold MapeKController.probeRouting at routed
  split at routed
  · cases routed
  · dsimp only at routed
    split at routed
    · split at routed
      · cases routed
      · split at routed
        · rename_i hviable
          exact hviable.2.2
        · cases routed
    · cases routed

theorem hasIsolationEvidence_zero (partials : List PartialPass) :
    MapeKController.hasIsolationEvidence partials 0 = false := by
  simp [MapeKController.hasIsolationEvidence]

/-- Without checks only the plateau sets off the integration wave. -/
theorem integrationTrigger_isSome {c : MapeKController} (unchecked : c.binaryChecks = [])
    (retryCount : Nat) :
    (c.integrationTrigger retryCount).isSome = plateauFires c retryCount := by
  unfold MapeKController.integrationTrigger plateauFires
  dsimp only
  rw [unchecked, List.length_nil, hasIsolationEvidence_zero, Bool.or_false]
  cases c.cfg.integrationWave.enabled with
  | false => rfl
  | true =>
      cases MapeKController.isCompliancePlateau c.complianceScoreHistory retryCount
          c.cfg.integrationWave.plateauThreshold <;> rfl

theorem integrationTrigger_graft {c : MapeKController} {retryCount : Nat}
    {decision : MapeKDecision} (fires : c.integrationTrigger retryCount = some decision) :
    AsksGraft decision := by
  unfold MapeKController.integrationTrigger at fires
  dsimp only at fires
  split at fires
  · split at fires
    · cases fires
      exact ⟨_, _, rfl⟩
    · cases fires
  · cases fires

theorem ceilingTrigger_graft {lib : ControllerLib} {c : MapeKController}
    {nEffCosine : Option ℚ} {retryCount : Nat} {decision : MapeKDecision}
    (fires : c.ceilingTrigger lib nEffCosine retryCount = some decision) :
    AsksGraft decision ↔ retryCount < 2 := by
  unfold MapeKController.ceilingTrigger at fires
  dsimp only at fires
  split at fires
  · split at fires
    · cases fires
      simp [AsksGraft]
    · cases fires
  · cases fires

theorem retryByPolicy_no_graft (lib : ControllerLib) {c : MapeKController}
    (unviable : c.corpusSynthesisViable = false) (retryCount : Nat) (filterRatio : ℚ) :
    ¬ AsksGraft (c.retryByPolicy lib retryCount filterRatio).1 := by
  rintro ⟨score, rationale, h⟩
  unfold MapeKController.retryByPolicy at h
  cases haction : c.policyAction lib retryCount with
  | fail =>
      rw [haction] at h
      simp [MapeKController.applyRetryAction, unviable] at h
  | _ =>
      rw [haction] at h
      cases h

theorem decideResolved_no_graft (c : MapeKController) (merge : MergeOutput) (retryCount : Nat) :
    ¬ AsksGraft (c.decideResolved merge retryCount).1 := by
  rintro ⟨score, rationale, h⟩
  rcases decideResolved_cases c merge retryCount with ⟨-, hretry⟩ | ⟨-, out, hreturn, -⟩
  · rw [hretry] at h
    cases h
  · rw [hreturn] at h
    cases h

/-- The wave was left early, and no constraint is reported unstable. -/
theorem earlyExit_graft_iff (lib : ControllerLib) {c : MapeKController}
    (unviable : c.corpusSynthesisViable = false) (unchecked : c.binaryChecks = [])
    {retryCount : Nat} (hsignal : (c.checkInstability lib retryCount).1 = none)
    (reason : ExitReason) (filterRatio : ℚ) :
    AsksGraft (c.decide lib (.earlyExit reason) retryCount filterRatio).1 ↔
      uncheckedGraft lib c retryCount (.earlyExit reason) = true := by
  obtain ⟨c', hsettled, hroute⟩ := decide_earlyExit hsignal reason filterRatio
  have hplateau := integrationTrigger_isSome unchecked retryCount
  have hintegration := hsettled.integrationTrigger retryCount
  have hprobe := hsettled.probeRouting retryCount
  have hunviable : c'.corpusSynthesisViable = false := by
    rw [← unviable]
    exact congrArg TaskPart.corpusSynthesisViable hsettled.taskPart
  generalize c.decide lib (.earlyExit reason) retryCount filterRatio = answer at hroute
  cases hroute with
  | probe routed =>
      refine iff_of_false ?_ ?_
      · intro graft
        rw [probeRouting_graft routed graft] at hunviable
        cases hunviable
      · rw [hprobe] at routed
        unfold uncheckedGraft
        split <;> simp [routed]
  | integration unrouted fires prepared =>
      refine iff_of_true (integrationTrigger_graft fires) ?_
      rw [hintegration] at fires
      rw [hprobe] at unrouted
      rw [fires] at hplateau
      simp [uncheckedGraft, hsignal, unrouted, ← hplateau]
  | @ceiling mode nEffCosine ratio tauValues events decision _ unrouted quiet fires
      prepared =>
      rw [ceilingTrigger_graft fires]
      rw [hintegration] at quiet
      rw [hprobe] at unrouted
      rw [hsettled.ceilingTrigger] at fires
      rw [quiet] at hplateau
      simp [uncheckedGraft, ceilingGrafts, hsignal, unrouted, fires, ← hplateau]
  | @policy _ c'' asks prepared ratio =>
      refine iff_of_false (retryByPolicy_no_graft lib ?_ retryCount ratio) ?_
      · rw [← hunviable]
        exact congrArg TaskPart.corpusSynthesisViable prepared.taskPart
      · rw [hsettled.asksPolicy] at asks
        -- the policy is asked only where both triggers stay silent
        unfold uncheckedGraft
        split
        · rename_i mode nEffCosine ratio tauValues events heq
          cases heq
          simp only [asksPolicy, Bool.and_eq_true, Option.isNone_iff_eq_none] at asks
          rw [asks.2.1] at hplateau
          simp [ceilingGrafts, asks.2.2, ← hplateau]
        · exact Bool.false_ne_true
  | hallucination unrouted =>
      exact iff_of_false (by simp [AsksGraft])
        (by simp [uncheckedGraft])
  | evicted unrouted =>
      exact iff_of_false (by simp [AsksGraft])
        (by simp [uncheckedGraft])
  | blocked unrouted =>
      exact iff_of_false (by simp [AsksGraft])
        (by simp [uncheckedGraft])

/-- Without binary checks, a decision asks for a graft exactly when one of the two
triggers answers the wave. -/
theorem decide_graft_iff (lib : ControllerLib) {c : MapeKController}
    (unviable : c.corpusSynthesisViable = false) (unchecked : c.binaryChecks = [])
    (outcome : PipelineOutcome) (retryCount : Nat) (filterRatio : ℚ) :
    AsksGraft (c.decide lib outcome retryCount filterRatio).1 ↔
      uncheckedGraft lib c retryCount outcome = true := by
  cases hsignal : (c.checkInstability lib retryCount).1 with
  | some signal =>
      obtain ⟨c', -, heq⟩ := decide_eq lib c outcome retryCount filterRatio
      rw [heq, hsignal]
      refine iff_of_false (by simp [AsksGraft]) ?_
      unfold uncheckedGraft
      split <;> simp [hsignal]
  | none =>
      cases outcome with
      | resolved merge =>
          obtain ⟨c', -, heq⟩ := decide_eq lib c (.resolved merge) retryCount filterRatio
          rw [heq, hsignal]
          exact iff_of_false (decideResolved_no_graft c' merge retryCount)
            (by simp [uncheckedGraft])
      | fatal e =>
          obtain ⟨c', -, heq⟩ := decide_eq lib c (.fatal e) retryCount filterRatio
          rw [heq, hsignal]
          exact iff_of_false (by simp [AsksGraft]) (by simp [uncheckedGraft])
      | earlyExit reason =>
          exact earlyExit_graft_iff lib unviable unchecked hsignal reason filterRatio

/-- A reachable controller grafts on a viable corpus only, exactly when its corpus
is viable or neither trigger answers the wave. -/
theorem reachable_graft_iff {lib : ControllerLib} {cfg : H2AIConfig} {init : ControllerInit}
    {corpus : List ConstraintDoc} {c : MapeKController}
    (reached : Reachable lib cfg init corpus c) (outcome : PipelineOutcome) (retryCount : Nat)
    (filterRatio : ℚ) :
    (AsksGraft (c.decide lib outcome retryCount filterRatio).1 →
        c.corpusSynthesisViable = true) ↔
      (c.corpusSynthesisViable = true ∨ uncheckedGraft lib c retryCount outcome = false) := by
  cases hviable : c.corpusSynthesisViable with
  | true => simp
  | false =>
      have hchecks : c.binaryChecks = [] := by
        have heq := reached.viable_eq
        rw [hviable, ← reached.binaryChecks_eq] at heq
        simpa using heq.symm
      rw [decide_graft_iff lib hviable hchecks outcome retryCount filterRatio]
      simp

/-! ## The branch of the run -/

/-- The run reaches the exhaustion handler with the graft signal set and a corpus
without binary checks. -/
def BugBranch (input : EngineInput) (world : EngineWorld) : Prop :=
  ∃ restart c s, ExhaustionPoint input world restart true c s ∧
    s.constraintCorpus.flatMap (·.binaryChecks) = []

/-- The wave is decided with a viable corpus, or past both triggers. -/
def waveChecked (input : EngineInput) (world : EngineWorld) (restart retryCount : Nat)
    (cs : MapeKController × EngineState) : Bool :=
  let point := decisionPoint input world restart retryCount cs
  point.1.corpusSynthesisViable || !uncheckedGraft input.lib point.1 retryCount
    (waveRun input world restart retryCount cs).result.outcome

theorem wave_graft_iff {input : EngineInput} {world : EngineWorld} {restart retryCount : Nat}
    {cs : MapeKController × EngineState} (start : WaveStart input world restart retryCount cs) :
    (AsksGraft (waveDecision input world restart retryCount cs).1 →
        (decidedState input world restart retryCount cs).constraintCorpus.flatMap
          (·.binaryChecks) ≠ []) ↔
      waveChecked input world restart retryCount cs = true := by
  have hheld := decisionPoint_held world restart retryCount (waveStart_held start)
  have hgraft := reachable_graft_iff hheld
    (waveRun input world restart retryCount cs).result.outcome retryCount
    (waveRun input world restart retryCount cs).result.events.filterRatio
  have hviable : (decisionPoint input world restart retryCount cs).1.corpusSynthesisViable = true ↔
      (decidedState input world restart retryCount cs).constraintCorpus.flatMap
        (·.binaryChecks) ≠ [] := by
    rw [hheld.viable_eq, (decidedState_appends input world restart retryCount cs).corpus]
    simp
  rw [← hviable]
  refine hgraft.trans ?_
  simp [waveChecked]

/-- The branch is reached exactly through a decided wave whose graft was not checked. -/
theorem not_bugBranch_iff (input : EngineInput) (world : EngineWorld) :
    ¬ BugBranch input world ↔ ∀ restart retryCount cs,
      WaveStart input world restart retryCount cs →
      WaveDecided input world restart retryCount cs →
      waveChecked input world restart retryCount cs = true := by
  constructor
  · intro clean restart retryCount cs start decided
    rw [← wave_graft_iff start]
    rintro ⟨score, rationale, hdecision⟩ hchecks
    refine clean ⟨restart, decidedController input world restart retryCount cs,
      decidedState input world restart retryCount cs, ?_, hchecks⟩
    obtain ⟨s₀, hiter, hn, hstart⟩ := start
    refine .graft hiter (forRounds_eq_stop.mpr ⟨retryCount, cs, by omega, hstart, ?_⟩)
    rw [Nat.zero_add, waveBody_decided decided, hdecision]
    rfl
  · rintro checked ⟨restart, c, s, point, hchecks⟩
    cases point with
    | @graft s₀ _ _ hiter loop =>
        obtain ⟨n, cs, hn, hstart, hstop⟩ := forRounds_eq_stop.mp loop
        rw [Nat.zero_add] at hstop
        obtain ⟨hdecided, hgraft, rfl⟩ := waveBody_graft hstop
        have hwave : WaveStart input world restart n cs := ⟨s₀, hiter, by omega, hstart⟩
        exact (wave_graft_iff hwave).mpr (checked restart n cs hwave hdecided) hgraft hchecks

/-- **Grafting is only chosen when it can run**, exactly where the corpus has binary
checks or neither the plateau nor the early ceiling trigger answers a zero-survival
wave; and `run_offline` keeps clear of its bug branch exactly when every wave it
decides is of this kind. -/
theorem graft_viable_iff (lib : ControllerLib) (cfg : H2AIConfig) (init : ControllerInit)
    (corpus : List ConstraintDoc) (ops : List ControllerOp) (outcome : PipelineOutcome)
    (retryCount : Nat) (filterRatio : ℚ) (input : EngineInput) (world : EngineWorld) :
    (let c := replay lib (MapeKController.new cfg init corpus) ops;
      ((∃ score rationale, (c.decide lib outcome retryCount filterRatio).1 =
          .complexityOverflow score rationale true) → c.corpusSynthesisViable = true) ↔
        (c.corpusSynthesisViable = true ∨ uncheckedGraft lib c retryCount outcome = false)) ∧
    (¬ BugBranch input world ↔ ∀ restart retryCount cs,
      WaveStart input world restart retryCount cs →
      WaveDecided input world restart retryCount cs →
      waveChecked input world restart retryCount cs = true) := by
  refine ⟨?_, not_bugBranch_iff input world⟩
  exact reachable_graft_iff ⟨ops, rfl⟩ outcome retryCount filterRatio

/-! ## A task without checks -/

/-- A draft is scored and pruned, in every wave with the same score. -/
def stalledWave : WaveWorld :=
  plainWave { plainPhases "" with
    verify := .earlyExit (.zeroSurvival none none 0 [] [⟨"explorer-1", 1 / 4, false⟩]) }

def stalledScores : WaveEvents :=
  { noEvents with verificationEvents := [⟨"explorer-1", 1 / 4, false⟩] }

/-- The loop is left for a graft on a corpus without checks. -/
def leavesUnchecked : Round (MapeKController × EngineState) WaveExit → Bool
  | .stop (.graft _ s) => (s.constraintCorpus.flatMap (·.binaryChecks)).isEmpty
  | _ => false

theorem bugBranch_of_loop {input : EngineInput} {world : EngineWorld} {restart : Nat}
    {s₀ : EngineState} (start : iterationStart input world restart = some s₀)
    (leaves : leavesUnchecked (waveLoop input world restart s₀) = true) :
    BugBranch input world := by
  unfold leavesUnchecked at leaves
  split at leaves
  · rename_i c s hloop
    exact ⟨restart, c, s, .graft start hloop, List.isEmpty_iff.mp leaves⟩
  · cases leaves

/-- The third wave on one level sets off the integration wave, on a corpus without a
single binary check, and the run ends in the branch that reports a bug. -/
theorem plateau_grafts_without_checks :
    (∃ ops, ((replay asciiLib (MapeKController.new .reference plainInit []) ops).decide asciiLib
        (.earlyExit (.zeroSurvival none none 0 [] [])) 2 1).1 =
          .complexityOverflow 0 "integration wave: plateau=true isolation=false at wave 2" true ∧
      (replay asciiLib (MapeKController.new .reference plainInit []) ops).corpusSynthesisViable =
        false) ∧
    BugBranch plainInput (plainWorld stalledWave) := by
  refine ⟨⟨[.observe stalledScores 0, .observe stalledScores 1, .observe stalledScores 2], ?_⟩, ?_⟩
  · decide +kernel
  · have hstart : iterationStart plainInput (plainWorld stalledWave) 0 =
        some (initialState plainInput (plainWorld stalledWave)) := rfl
    exact bugBranch_of_loop hstart (by decide +kernel)

end ControlPlane.Guarantees.GraftViability
