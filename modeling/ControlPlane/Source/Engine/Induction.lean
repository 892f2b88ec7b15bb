import ControlPlane.Source.Engine.RunOutcomes
import ControlPlane.Source.Memory.InductionStore

/-!
# Induction calls of a run

The retroactive trigger in the `ZeroSurvival` arm and the consumption of its result in
`observe` (`crates/h2ai-orchestrator/src/mape_k.rs`), and the two places of
`run_offline` (`engine.rs`) that call `record_success`. A hint that is applied ends in
the retry context, which routes nothing, so the waves of a run are those of
`run_offline`.
-/
namespace ControlPlane.Source.Engine

open Constraints MapeK Lib Memory

/-- The fields of `InductionTriggerConfig` that are read here. -/
structure InductionTriggerConfig where
  enabled : Bool
  minPriorTasks : Nat
  deriving DecidableEq, Repr

/-- What the engine input holds for induction, and the results that come back from
lookups within the grace period, by restart and wave. -/
structure InductionSetup where
  tenantId : TenantId
  /-- `manifest.constraint_tags`, which are the controller's `task_class_tags`. -/
  constraintTags : List String
  /-- An induction scheduler is present. -/
  scheduler : Bool
  trigger : InductionTriggerConfig
  answer : Nat → Nat → InductionContext → Option InductionResult

/-- A call on the scheduler. -/
inductive InductionCall where
  | runRetroactive (ctx : InductionContext)
  | recordSuccess (hintTexts : List String) (ctx : InductionContext)
  deriving DecidableEq, Repr

def InductionCall.context : InductionCall → InductionContext
  | .runRetroactive ctx => ctx
  | .recordSuccess _ ctx => ctx

/-- `pending_induction` and `applied_hint_texts` of the controller. -/
structure InductionState where
  pending : Option InductionContext
  applied : List String
  deriving DecidableEq, Repr

/-- `all_violated_constraint_ids`. -/
def allViolatedConstraintIds (lib : ControllerLib) (c : MapeKController) : List String :=
  lib.walkIds ((c.allPruned.flatMap fun e => e.violatedConstraints.map (·.constraintId)).dedup)

/-- The context of the retroactive lookup. -/
def retroactiveContext (setup : InductionSetup) (lib : ControllerLib) (c : MapeKController) :
    InductionContext :=
  ⟨c.taskId, setup.constraintTags, (allViolatedConstraintIds lib c).take 5⟩

/-- The context of `record_success`. -/
def successContext (setup : InductionSetup) : InductionContext :=
  ⟨setup.tenantId.name, setup.constraintTags, []⟩

/-- The lookup that a decision spawns: a zero-survival exit comes past the probe routing
and both triggers, and is counted. -/
def spawnedLookup (setup : InductionSetup) (lib : ControllerLib) (c : MapeKController)
    (retryCount : Nat) : PipelineOutcome → Option InductionContext
  | .earlyExit (.zeroSurvival mode nEffCosine filterRatio tauValues events) =>
      if (c.checkInstability lib retryCount).1.isNone &&
          asksPolicy lib c retryCount
            (.zeroSurvival mode nEffCosine filterRatio tauValues events) &&
          setup.scheduler && setup.trigger.enabled &&
          decide (setup.trigger.minPriorTasks ≤ (c.countZeroSurvival nEffCosine).zeroSurvivalCount)
      then some (retroactiveContext setup lib c)
      else none
  | _ => none

/-- `observe`: a pending lookup is consumed, and the first pattern of a compatible result
is applied. -/
def InductionState.observe (setup : InductionSetup) (restart retryCount : Nat)
    (st : InductionState) : InductionState :=
  match st.pending.bind (setup.answer restart retryCount) with
  | some result =>
      match result.isCompatibleWith setup.constraintTags, result.patterns with
      | true, top :: _ => ⟨none, st.applied ++ [top.hintText]⟩
      | _, _ => ⟨none, st.applied⟩
  | none => ⟨none, st.applied⟩

/-! ## Along a run -/

/-- A run with what it has for induction. -/
structure InductionRun where
  input : EngineInput
  world : EngineWorld
  setup : InductionSetup

namespace InductionRun

variable (run : InductionRun)

/-- The lookup of a wave that is decided. -/
def lookup (restart retryCount : Nat) (cs : MapeKController × EngineState) :
    Option InductionContext :=
  spawnedLookup run.setup run.input.lib (decisionPoint run.input run.world restart retryCount cs).1
    retryCount (waveRun run.input run.world restart retryCount cs).result.outcome

/-- The start of wave `retryCount` in the iteration that starts with `s`. -/
def waveAt (restart : Nat) (s : EngineState) (retryCount : Nat) :
    Option (MapeKController × EngineState) :=
  roundStart (waveBody run.input run.world restart) 0
    (freshController run.input s.constraintCorpus, s) retryCount

/-- The induction state in front of a wave; behind the last wave it stays as it is. -/
def stateBefore (restart : Nat) (s : EngineState) : Nat → InductionState
  | 0 => ⟨none, []⟩
  | n + 1 =>
      let st := stateBefore restart s n
      match run.waveAt restart s n with
      | some cs =>
          let st := st.observe run.setup restart n
          { st with pending := (run.lookup restart n cs).or st.pending }
      | none => st

/-- The hints applied when wave `retryCount` is decided. -/
def appliedAt (restart : Nat) (s : EngineState) (retryCount : Nat) : List String :=
  ((run.stateBefore restart s retryCount).observe run.setup restart retryCount).applied

/-- The hints applied when an iteration is over. -/
def appliedAfter (restart : Nat) (s : EngineState) : List String :=
  (run.stateBefore restart s (run.input.cfg.maxAutonomicRetries + 1)).applied

/-- The calls a run makes: lookups of its waves, and a success at the return of a wave
or of the synthesis wave. -/
inductive Calls : InductionCall → Prop where
  | lookup {restart retryCount cs ctx}
      (start : WaveStart run.input run.world restart retryCount cs)
      (decided : WaveDecided run.input run.world restart retryCount cs)
      (spawned : run.lookup restart retryCount cs = some ctx) : Calls (.runRetroactive ctx)
  | returned {restart s retryCount cs out}
      (start : iterationStart run.input run.world restart = some s)
      (within : retryCount ≤ run.input.cfg.maxAutonomicRetries)
      (wave : run.waveAt restart s retryCount = some cs)
      (decided : WaveDecided run.input run.world restart retryCount cs)
      (returns : (waveDecision run.input run.world restart retryCount cs).1 = .return out)
      (scheduler : run.setup.scheduler = true)
      (applied : run.appliedAt restart s retryCount ≠ []) :
      Calls (.recordSuccess (run.appliedAt restart s retryCount) (successContext run.setup))
  | synthesized {restart s graft c s' text}
      (start : iterationStart run.input run.world restart = some s)
      (point : ExhaustionPoint run.input run.world restart graft c s')
      (delivers : synthesisWave run.input (run.world.synthesis restart) graft c
        s'.constraintCorpus = some text)
      (scheduler : run.setup.scheduler = true)
      (applied : run.appliedAfter restart s ≠ []) :
      Calls (.recordSuccess (run.appliedAfter restart s) (successContext run.setup))

/-! ## When a wave looks up -/

/-- The wave is decided, ends without survivors past the probe routing and both triggers,
and is at least the `min_prior_tasks`-th of its iteration to do so. -/
structure Triggers (restart retryCount : Nat) (cs : MapeKController × EngineState) : Prop where
  decided : WaveDecided run.input run.world restart retryCount cs
  scheduler : run.setup.scheduler = true
  enabled : run.setup.trigger.enabled = true
  stable : ((decisionPoint run.input run.world restart retryCount cs).1.checkInstability
    run.input.lib retryCount).1 = none
  exit : ∃ mode nEffCosine filterRatio tauValues events,
    (waveRun run.input run.world restart retryCount cs).result.outcome =
        .earlyExit (.zeroSurvival mode nEffCosine filterRatio tauValues events) ∧
      asksPolicy run.input.lib (decisionPoint run.input run.world restart retryCount cs).1
        retryCount (.zeroSurvival mode nEffCosine filterRatio tauValues events) = true
  counted : run.setup.trigger.minPriorTasks ≤
    (decisionPoint run.input run.world restart retryCount cs).1.zeroSurvivalCount + 1

variable {run} {restart retryCount : Nat} {cs : MapeKController × EngineState}

theorem Triggers.lookup (h : run.Triggers restart retryCount cs) :
    run.lookup restart retryCount cs = some (retroactiveContext run.setup run.input.lib
      (decisionPoint run.input run.world restart retryCount cs).1) := by
  obtain ⟨mode, nEffCosine, filterRatio, tauValues, events, houtcome, hasks⟩ := h.exit
  unfold InductionRun.lookup spawnedLookup
  simp [houtcome, hasks, h.stable, h.scheduler, h.enabled, h.counted,
    MapeKController.countZeroSurvival]

theorem triggers_of_lookup {ctx : InductionContext}
    (decided : WaveDecided run.input run.world restart retryCount cs)
    (h : run.lookup restart retryCount cs = some ctx) : run.Triggers restart retryCount cs := by
  unfold InductionRun.lookup spawnedLookup at h
  split at h
  · rename_i mode nEffCosine filterRatio tauValues events houtcome
    split at h
    · rename_i hall
      simp only [Bool.and_eq_true, decide_eq_true_eq, Option.isNone_iff_eq_none] at hall
      obtain ⟨⟨⟨⟨hstable, hasks⟩, hscheduler⟩, henabled⟩, hcounted⟩ := hall
      exact ⟨decided, hscheduler, henabled, hstable,
        ⟨mode, nEffCosine, filterRatio, tauValues, events, houtcome, hasks⟩, hcounted⟩
    · cases h
  · cases h

/-- The controller of a wave has the task id that `new` was given. -/
theorem lookup_tenantId {ctx : InductionContext}
    (start : WaveStart run.input run.world restart retryCount cs)
    (decided : WaveDecided run.input run.world restart retryCount cs)
    (h : run.lookup restart retryCount cs = some ctx) :
    ctx.tenantId = run.input.init.taskId := by
  have hctx := (triggers_of_lookup decided h).lookup
  rw [h] at hctx
  rw [Option.some.inj hctx]
  have hheld := decisionPoint_held run.world restart retryCount (waveStart_held start)
  exact congrArg TaskPart.taskId hheld.taskPart

end InductionRun

end ControlPlane.Source.Engine
