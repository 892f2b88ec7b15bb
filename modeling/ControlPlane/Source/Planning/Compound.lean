import Mathlib.Data.List.AList
import Mathlib.Data.List.FinRange
import Mathlib.Data.Rat.Defs

/-!
# Subtask scheduler

Embeds `crates/h2ai-orchestrator/src/scheduler.rs` and the plan types it reads
(`crates/h2ai-types/src/plan.rs`). A vector with one entry for each subtask is a
function on `Fin n`. Panics (a decrement below zero, a missing id) and missing
fuel are `none`. The manifest leaves out `pareto_weights`, `topology` and
`explorers`, which are copied from the parent and never read here.
-/
namespace ControlPlane.Source.Planning

structure SubtaskId where
  uuid : Nat
  deriving DecidableEq, Repr

inductive AgentRole where
  | coordinator | executor | evaluator | synthesizer
  | custom (name : String) (tau roleErrorCost : ℚ)
  deriving DecidableEq, Repr

structure Subtask where
  id : SubtaskId
  description : String
  dependsOn : List SubtaskId
  roleHint : Option AgentRole
  deriving DecidableEq, Repr

structure SubtaskResult where
  subtaskId : SubtaskId
  output : String
  tokenCost : Nat
  deriving DecidableEq, Repr

structure TaskManifest where
  description : String
  constraints : List String
  context : Option String
  hasOracle : Bool
  requireApproval : Bool
  constraintTags : List String
  measureVerifierAb : Bool
  tenantId : String
  deriving DecidableEq, Repr

inductive SchedulerError where
  | cyclicDependency
  | executionFailed (subtaskId : SubtaskId) (message : String)
  deriving DecidableEq, Repr

/-! ## Waves -/

/-- The map from ids to indices; a later entry of the same id overwrites an earlier one. -/
def idToIdx (subtasks : List Subtask) (id : SubtaskId) : Option (Fin subtasks.length) :=
  (List.finRange subtasks.length).reverse.find? fun i => decide ((subtasks.get i).id = id)

/-- `adj[dep_idx].push(i)`, where the dependency is a subtask of the list. -/
def pushEdge (subtasks : List Subtask) (i : Fin subtasks.length)
    (adj : Fin subtasks.length → List (Fin subtasks.length)) (depId : SubtaskId) :
    Fin subtasks.length → List (Fin subtasks.length) :=
  match idToIdx subtasks depId with
  | some depIdx => Function.update adj depIdx (adj depIdx ++ [i])
  | none => adj

/-- For each index, the subtasks that depend on it, once for each entry of `depends_on`. -/
def adjacency (subtasks : List Subtask) :
    Fin subtasks.length → List (Fin subtasks.length) :=
  (List.finRange subtasks.length).foldl
    (fun adj i => (subtasks.get i).dependsOn.foldl (pushEdge subtasks i) adj) fun _ => []

structure WaveState (n : Nat) where
  inDegree : Fin n → Nat
  ready : List (Fin n)

/-- `in_degree[dep] -= 1`, and `dep` is ready when this makes it zero. -/
def release {n : Nat} (state : WaveState n) (dep : Fin n) : Option (WaveState n) :=
  match state.inDegree dep with
  | 0 => none
  | k + 1 =>
      some { inDegree := Function.update state.inDegree dep k
             ready := if k = 0 then state.ready ++ [dep] else state.ready }

def releaseWave {n : Nat} (adj : Fin n → List (Fin n)) (waveIndices : List (Fin n))
    (state : WaveState n) : Option (WaveState n) :=
  waveIndices.foldlM (fun state idx => (adj idx).foldlM release state) state

/-- The `while` loop; the result is `visited` and the waves. -/
def waveLoop (subtasks : List Subtask)
    (adj : Fin subtasks.length → List (Fin subtasks.length)) :
    Nat → WaveState subtasks.length → Nat → List (List SubtaskId) →
      Option (Nat × List (List SubtaskId))
  | 0, _, _, _ => none
  | fuel + 1, state, visited, waves =>
      if state.ready.isEmpty then some (visited, waves)
      else
        let waveIndices := state.ready
        let waveIds := waveIndices.map fun i => (subtasks.get i).id
        (releaseWave adj waveIndices ⟨state.inDegree, []⟩).bind fun next =>
          waveLoop subtasks adj fuel next (visited + waveIndices.length) (waves ++ [waveIds])

/-- The degrees and the ready subtasks before the first wave. -/
def firstState (subtasks : List Subtask) : WaveState subtasks.length :=
  let inDegree := fun i => (subtasks.get i).dependsOn.length
  { inDegree := inDegree
    ready := (List.finRange subtasks.length).filter fun i => decide (inDegree i = 0) }

/-- `topo_waves`. -/
def topoWaves (fuel : Nat) (subtasks : List Subtask) :
    Option (Except SchedulerError (List (List SubtaskId))) :=
  (waveLoop subtasks (adjacency subtasks) fuel (firstState subtasks) 0 []).map fun p =>
    if p.1 ≠ subtasks.length then .error .cyclicDependency else .ok p.2

/-! ## Execution -/

/-- `build_subtask_manifest`. -/
def buildSubtaskManifest (subtask : Subtask) (parent : TaskManifest)
    (completed : AList fun _ : SubtaskId => SubtaskResult) : TaskManifest :=
  let depContext := String.intercalate "\n\n---\n\n" (subtask.dependsOn.filterMap fun id =>
    (completed.lookup id).map fun r => "## Subtask Result\n\n" ++ r.output)
  let context :=
    if depContext.isEmpty then parent.context
    else
      let base := parent.context.getD ""
      some (if base.isEmpty then depContext else base ++ "\n\n---\n\n" ++ depContext)
  { description := subtask.description
    constraints := parent.constraints
    context := context
    hasOracle := false
    requireApproval := false
    constraintTags := parent.constraintTags
    measureVerifierAb := parent.measureVerifierAb
    tenantId := parent.tenantId }

/-- `SubtaskExecutor::execute`. -/
abbrev SubtaskExecutor := SubtaskId → TaskManifest → Except SchedulerError SubtaskResult

/-- The calls of one wave: all of them are made before a result is looked at. -/
def waveCalls (subtasks : List Subtask) (parent : TaskManifest)
    (completed : AList fun _ : SubtaskId => SubtaskResult) (wave : List SubtaskId) :
    Option (List (SubtaskId × TaskManifest)) :=
  wave.mapM fun id =>
    (subtasks.find? fun s => decide (s.id = id)).map fun subtask =>
      (id, buildSubtaskManifest subtask parent completed)

/-- The results of a wave enter the map in order, up to the first error. -/
def collectResults (results : List (Except SchedulerError SubtaskResult))
    (completed : AList fun _ : SubtaskId => SubtaskResult) :
    Except SchedulerError (AList fun _ : SubtaskId => SubtaskResult) :=
  results.foldlM (fun completed res => res.map fun result =>
    completed.insert result.subtaskId result) completed

/-- The calls made, in order, and what `execute` returns. -/
structure Execution where
  calls : List (SubtaskId × TaskManifest)
  result : Except SchedulerError (List SubtaskResult)

def executeWaves (subtasks : List Subtask) (parent : TaskManifest) (executor : SubtaskExecutor) :
    List (List SubtaskId) → (AList fun _ : SubtaskId => SubtaskResult) →
      List (SubtaskId × TaskManifest) → Option Execution
  | [], completed, calls => some ⟨calls, .ok (completed.entries.map (·.2))⟩
  | wave :: rest, completed, calls =>
      (waveCalls subtasks parent completed wave).bind fun batch =>
        match collectResults (batch.map fun call => executor call.1 call.2) completed with
        | .error e => some ⟨calls ++ batch, .error e⟩
        | .ok next => executeWaves subtasks parent executor rest next (calls ++ batch)

/-- `SchedulingEngine::execute`. -/
def execute (fuel : Nat) (subtasks : List Subtask) (parentManifest : TaskManifest)
    (executor : SubtaskExecutor) : Option Execution :=
  match topoWaves fuel subtasks with
  | none => none
  | some (.error e) => some ⟨[], .error e⟩
  | some (.ok waves) => executeWaves subtasks parentManifest executor waves ∅ []

end ControlPlane.Source.Planning

/-!
# Compound tasks: decompose, review, schedule

Embeds `build_plan` of `crates/h2ai-planner/src/decomposer.rs`, `detect_cycle` and
`PlanReviewer::evaluate` of `reviewer.rs`, and `CompoundTaskEngine::run` of
`crates/h2ai-orchestrator/src/compound.rs`. The parsed answers of the two LLM calls
are parameters, and so are the fresh ids. `created_at` and the review prompt, which
only the LLM reads, are left out.
-/
namespace ControlPlane.Source.Planning

inductive PlannerError where
  | adapter (message : String)
  | parseError (message : String)
  | invalidDependencyIndex (index len : Nat)
  deriving DecidableEq, Repr

structure LlmSubtask where
  description : String
  dependsOn : List Nat
  roleHint : Option String
  deriving DecidableEq, Repr

structure LlmDecomposition where
  subtasks : List LlmSubtask
  deriving DecidableEq, Repr

inductive PlanStatus where
  | draft | pendingReview | approved
  | rejected (reason : String)
  | executing (completed total : Nat)
  | complete
  deriving DecidableEq, Repr

structure SubtaskPlan where
  planId : String
  parentTaskId : String
  subtasks : List Subtask
  status : PlanStatus
  deriving DecidableEq, Repr

/-! ## Decomposition -/

/-- `parse_role_hint`. -/
def parseRoleHint : Option String → Option AgentRole
  | some "Executor" => some .executor
  | some "Evaluator" => some .evaluator
  | some "Synthesizer" => some .synthesizer
  | some "Coordinator" => some .coordinator
  | _ => none

/-- The ids of a raw subtask's dependency indices. -/
def resolveDeps (ids : Nat → SubtaskId) (n : Nat) (dependsOn : List Nat) :
    Except PlannerError (List SubtaskId) :=
  dependsOn.mapM fun idx =>
    if idx ≥ n then .error (.invalidDependencyIndex idx n) else .ok (ids idx)

/-- `build_plan`; `ids i` is the fresh id of the `i`-th subtask. -/
def buildPlan (ids : Nat → SubtaskId) (planId parentTaskId : String)
    (decomp : LlmDecomposition) : Except PlannerError SubtaskPlan :=
  let n := decomp.subtasks.length
  let subtasks := decomp.subtasks.zipIdx.mapM fun p =>
    (resolveDeps ids n p.1.dependsOn).map fun dependsOn =>
      { id := ids p.2
        description := p.1.description
        dependsOn := dependsOn
        roleHint := parseRoleHint p.1.roleHint : Subtask }
  subtasks.map fun subtasks =>
    { planId := planId
      parentTaskId := parentTaskId
      subtasks := subtasks
      status := .pendingReview }

/-! ## Review -/

inductive ReviewOutcome where
  | approved
  | rejected (reason : String)
  deriving DecidableEq, Repr

inductive Color where
  | white | gray | black
  deriving DecidableEq, Repr

/-- The loop of `dfs` over `depends_on`; `visit` is the recursive call. -/
def visitDeps (subtasks : List Subtask)
    (visit : Fin subtasks.length → (Fin subtasks.length → Color) →
      Option (Bool × (Fin subtasks.length → Color))) :
    List SubtaskId → (Fin subtasks.length → Color) →
      Option (Bool × (Fin subtasks.length → Color))
  | [], color => some (false, color)
  | depId :: rest, color =>
      match idToIdx subtasks depId with
      | none => visitDeps subtasks visit rest color
      | some u =>
          match color u with
          | .gray => some (true, color)
          | .black => visitDeps subtasks visit rest color
          | .white =>
              match visit u color with
              | none => none
              | some (true, color) => some (true, color)
              | some (false, color) => visitDeps subtasks visit rest color

/-- `dfs`; the flag tells that a cycle was found. -/
def dfs (subtasks : List Subtask) : Nat → Fin subtasks.length →
    (Fin subtasks.length → Color) → Option (Bool × (Fin subtasks.length → Color))
  | 0, _, _ => none
  | fuel + 1, v, color =>
      match visitDeps subtasks (dfs subtasks fuel) (subtasks.get v).dependsOn
          (Function.update color v .gray) with
      | none => none
      | some (true, color) => some (true, color)
      | some (false, color) => some (false, Function.update color v .black)

def cycleReason : String := "Cyclic dependency detected in subtask plan."

/-- The loop of `detect_cycle` over the remaining roots. -/
def detectFrom (subtasks : List Subtask) (fuel : Nat) :
    List (Fin subtasks.length) → (Fin subtasks.length → Color) → Option (Option String)
  | [], _ => some none
  | i :: rest, color =>
      if color i = .white then
        match dfs subtasks fuel i color with
        | none => none
        | some (true, _) => some (some cycleReason)
        | some (false, color) => detectFrom subtasks fuel rest color
      else detectFrom subtasks fuel rest color

/-- `detect_cycle`. -/
def detectCycle (fuel : Nat) (plan : SubtaskPlan) : Option (Option String) :=
  detectFrom plan.subtasks fuel (List.finRange plan.subtasks.length) fun _ => .white

/-- `PlanReviewer::evaluate`; `review` is the parsed answer of the LLM to the plan. -/
def evaluate (fuel : Nat) (plan : SubtaskPlan)
    (review : SubtaskPlan → Except PlannerError ReviewOutcome) :
    Option (Except PlannerError ReviewOutcome) :=
  if plan.subtasks.isEmpty then some (.ok (.rejected "Plan contains no subtasks."))
  else
    match detectCycle fuel plan with
    | none => none
    | some (some reason) => some (.ok (.rejected reason))
    | some none => some (review plan)

/-! ## The pipeline -/

inductive CompoundError where
  | planning (e : PlannerError)
  | planRejected (reason : String)
  | scheduling (e : SchedulerError)
  deriving DecidableEq, Repr

structure CompoundTaskOutput where
  taskId : String
  plan : SubtaskPlan
  subtaskResults : List SubtaskResult
  deriving DecidableEq, Repr

/-- What the calls of one run answer: the parsed decomposition, the fresh ids, the
parsed review and the executor. -/
structure CompoundWorld where
  decomposition : Except PlannerError LlmDecomposition
  ids : Nat → SubtaskId
  planId : String
  placeholderTaskId : String
  review : SubtaskPlan → Except PlannerError ReviewOutcome
  executor : SubtaskExecutor

/-- `PlanningEngine::decompose`. -/
def decompose (world : CompoundWorld) : Except PlannerError SubtaskPlan :=
  world.decomposition.bind fun decomposition =>
    buildPlan world.ids world.planId world.placeholderTaskId decomposition

/-- `CompoundTaskEngine::run`. -/
def run (fuel : Nat) (world : CompoundWorld) (taskId : String) (manifest : TaskManifest) :
    Option (Except CompoundError CompoundTaskOutput) :=
  match decompose world with
  | .error e => some (.error (.planning e))
  | .ok decomposed =>
      let plan := { decomposed with parentTaskId := taskId }
      match evaluate fuel plan world.review with
      | none => none
      | some (.error e) => some (.error (.planning e))
      | some (.ok (.rejected reason)) => some (.error (.planRejected reason))
      | some (.ok .approved) =>
          let plan := { plan with status := .approved }
          (execute fuel plan.subtasks manifest world.executor).map fun execution =>
            match execution.result with
            | .error e => .error (.scheduling e)
            | .ok subtaskResults =>
                .ok { taskId := taskId, plan := plan, subtaskResults := subtaskResults }

end ControlPlane.Source.Planning
