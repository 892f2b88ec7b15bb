import ControlPlane.Lib.Runs
import ControlPlane.Source.Engine.RunOffline
import ControlPlane.Source.Tasks.TaskStore

/-!
# Store operations of a task

The operations that one run of a task issues on the `TaskStore`: those of
`run_offline` (`crates/h2ai-orchestrator/src/engine.rs`) with the phases of its waves
(`pipeline.rs`, `phases/*.rs`), and the one behind it, of `post_run` or of the failure
branch of `run_task_pipeline` (`crates/h2ai-api/src/task_pipeline.rs`). They are
interleaved with `merge_task` requests (`crates/h2ai-api/src/routes/tasks.rs`), which
check the status, publish, and only then write.
-/
namespace ControlPlane.Source.Tasks

open Engine MapeK

/-! ## Operations -/

inductive StoreOp where
  /-- `insert` of `TaskState::new`. -/
  | insert (tenant : TenantId)
  | setPhase (phase : TaskPhase) (explorerCount retries : Nat)
  | incrementCompleted
  | recordValidation (valid : Bool)
  | markResolved
  | markFailed
  | setAwaitingApproval
  deriving DecidableEq

def StoreOp.apply (store : TaskStore) (id : TaskId) : StoreOp → TaskStore
  | insert tenant => store.insert id (TaskState.new id tenant)
  | setPhase phase explorerCount retries => store.setPhase id phase explorerCount retries
  | incrementCompleted => store.incrementCompleted id
  | recordValidation valid => store.recordValidation id valid
  | markResolved => store.markResolved id
  | markFailed => store.markFailed id
  | setAwaitingApproval => store.setAwaitingApproval id

/-- The phase that an operation writes. -/
def StoreOp.phase? : StoreOp → Option TaskPhase
  | insert _ => some .bootstrap
  | setPhase phase _ _ => some phase
  | incrementCompleted => none
  | recordValidation _ => none
  | markResolved => some .resolved
  | markFailed => some .failed
  | setAwaitingApproval => some .awaitingApproval

/-! ## Waves -/

/-- What the phases of a wave count: the explorers, those that have finished, and the
validations of the verification and of the audit. -/
structure WaveCounters where
  explorerCount : Nat
  completed : Nat
  verified : List Bool
  audited : List Bool

/-- The operations behind a phase, if the wave goes on. -/
def behind {α : Type} (step : StepResult α) (next : α → List StoreOp) : List StoreOp :=
  match step with
  | .done out => next out
  | .earlyExit _ => []
  | .fatal _ => []

def waveOps (phases : WavePhases) (retryCount : Nat) (n : WaveCounters) : List StoreOp :=
  .setPhase .provisioning 0 retryCount ::
    behind phases.topology fun _ =>
      .setPhase .multiplicationCheck n.explorerCount retryCount ::
        behind phases.multiply fun _ =>
          behind phases.diversity fun _ =>
            .setPhase .parallelGeneration n.explorerCount retryCount ::
              (List.replicate n.completed .incrementCompleted ++
                behind phases.generation fun generated =>
                  behind (phases.hallucination generated) fun _ =>
                    n.verified.map .recordValidation ++
                      behind phases.verify fun _ =>
                        .setPhase .auditorGate n.explorerCount retryCount ::
                          n.audited.map .recordValidation)

theorem mem_behind {α : Type} {step : StepResult α} {next : α → List StoreOp} {op : StoreOp}
    (h : op ∈ behind step next) : ∃ out, op ∈ next out := by
  unfold behind at h
  split at h
  next out => exact ⟨out, h⟩
  next => cases h
  next => cases h

/-- What a wave may ask of the store. -/
inductive WaveOp : StoreOp → Prop where
  | setPhase {phase : TaskPhase} (running : phase.terminal = false) (explorerCount retries : Nat) :
      WaveOp (.setPhase phase explorerCount retries)
  | incrementCompleted : WaveOp .incrementCompleted
  | recordValidation (valid : Bool) : WaveOp (.recordValidation valid)

theorem waveOps_mem (phases : WavePhases) (retryCount : Nat) (n : WaveCounters) :
    ∀ op ∈ waveOps phases retryCount n, WaveOp op := by
  have hcount : ∀ l : List Bool, ∀ op ∈ l.map StoreOp.recordValidation, WaveOp op := by
    intro l op hop
    obtain ⟨valid, -, rfl⟩ := List.mem_map.mp hop
    exact .recordValidation valid
  intro op hop
  rcases List.mem_cons.mp hop with rfl | hop
  · exact .setPhase rfl _ _
  obtain ⟨-, hop⟩ := mem_behind hop
  rcases List.mem_cons.mp hop with rfl | hop
  · exact .setPhase rfl _ _
  obtain ⟨-, hop⟩ := mem_behind hop
  obtain ⟨-, hop⟩ := mem_behind hop
  rcases List.mem_cons.mp hop with rfl | hop
  · exact .setPhase rfl _ _
  rcases List.mem_append.mp hop with hop | hop
  · rw [List.eq_of_mem_replicate hop]
    exact .incrementCompleted
  obtain ⟨generated, hop⟩ := mem_behind hop
  obtain ⟨-, hop⟩ := mem_behind hop
  rcases List.mem_append.mp hop with hop | hop
  · exact hcount _ op hop
  obtain ⟨-, hop⟩ := mem_behind hop
  rcases List.mem_cons.mp hop with rfl | hop
  · exact .setPhase rfl _ _
  · exact hcount _ op hop

/-! ## A run -/

/-- The operations behind a log. A successful repair starts the next iteration. -/
def engineOps (world : EngineWorld) (counters : Nat → Nat → WaveCounters) :
    Nat → List EngineAction → List StoreOp
  | _, [] => []
  | restart, .wave retryCount :: rest =>
      waveOps (world.wave restart retryCount).phases retryCount (counters restart retryCount) ++
        engineOps world counters restart rest
  | restart, .repair _ (.repaired _ _) :: rest => engineOps world counters (restart + 1) rest
  | restart, .markFailed :: rest => .markFailed :: engineOps world counters restart rest
  | restart, .markResolved :: rest => .markResolved :: engineOps world counters restart rest
  | restart, .setAwaitingApproval :: rest =>
      .setAwaitingApproval :: engineOps world counters restart rest
  | restart, _ :: rest => engineOps world counters restart rest

/-- The phases in front of the loop mark the task failed with this error. -/
def preLoopMarksFailed : EngineError → Bool
  | .multiplicationConditionFailed _ => true
  | _ => false

def preLoopOps (world : EngineWorld) : List StoreOp :=
  match world.preLoopError with
  | some e => if preLoopMarksFailed e then [.markFailed] else []
  | none => []

/-- `post_run`, or the failure branch. -/
def pipelineEnd : EngineResult → StoreOp
  | .ok _ => .markResolved
  | .error _ => .markFailed

/-- The operations of a run. A run that has not returned after `fuel` iterations of its
restart loop has issued those of these iterations. -/
def taskOps (input : EngineInput) (world : EngineWorld) (counters : Nat → Nat → WaveCounters)
    (tenant : TenantId) (fuel : Nat) : List StoreOp :=
  .insert tenant ::
    match runOffline input world fuel with
    | some (result, s) =>
        preLoopOps world ++ engineOps world counters 0 s.log ++ [pipelineEnd result]
    | none =>
        match iterationStart input world fuel with
        | some s => engineOps world counters 0 s.log
        | none => []

/-! ## Interleaved with merges -/

structure TaskSystem where
  store : TaskStore
  /-- What the run has still to issue. -/
  run : List StoreOp
  /-- `merge_task` requests that have passed their check. -/
  merges : Nat

inductive TaskAction where
  | runOp
  | mergeCheck (tenant : TenantId)
  /-- The event is published, and the task is marked resolved. -/
  | mergeWrite
  /-- The event was not published. -/
  | mergeFails
  deriving DecidableEq

/-- The check of `merge_task`. -/
def mergeAccepted (store : TaskStore) (id : TaskId) (tenant : TenantId) : Bool :=
  match store.getForTenant id tenant with
  | none => false
  | some ts => ts.status != "resolved"

def taskStep (id : TaskId) (s : TaskSystem) : TaskAction → Option TaskSystem
  | .runOp =>
      match s.run with
      | [] => none
      | op :: rest => some { s with store := op.apply s.store id, run := rest }
  | .mergeCheck tenant =>
      some (if mergeAccepted s.store id tenant then { s with merges := s.merges + 1 } else s)
  | .mergeWrite =>
      match s.merges with
      | 0 => none
      | merges + 1 => some { s with store := s.store.markResolved id, merges := merges }
  | .mergeFails =>
      match s.merges with
      | 0 => none
      | merges + 1 => some { s with merges := merges }

/-- `submit_task` has inserted the task, and its run has not begun. -/
def TaskSystem.submitted (store : TaskStore) (id : TaskId) (tenant : TenantId)
    (run : List StoreOp) : TaskSystem :=
  ⟨store.insert id (TaskState.new id tenant), run, 0⟩

end ControlPlane.Source.Tasks
