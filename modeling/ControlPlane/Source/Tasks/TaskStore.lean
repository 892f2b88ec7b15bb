import ControlPlane.Source.Identity
import Mathlib.Logic.Function.Basic

/-!
# The task store

Embeds `crates/h2ai-orchestrator/src/task_store.rs`. The store is the map behind the
`DashMap`, by task id; every method is one atomic access to an entry. The counters
are natural numbers.
-/
namespace ControlPlane.Source.Tasks

inductive TaskPhase where
  | bootstrap | provisioning | multiplicationCheck | parallelGeneration | auditorGate
  | merging | resolved | failed | complexityAssessed | awaitingApproval
  deriving DecidableEq, Repr

namespace TaskPhase

/-- The discriminant, `phase as u8`. -/
def toNat : TaskPhase → Nat
  | bootstrap => 1
  | provisioning => 2
  | multiplicationCheck => 3
  | parallelGeneration => 4
  | auditorGate => 5
  | merging => 6
  | resolved => 7
  | failed => 8
  | complexityAssessed => 9
  | awaitingApproval => 10

def statusStr : TaskPhase → String
  | bootstrap => "pending"
  | complexityAssessed => "assessing"
  | provisioning => "provisioning"
  | multiplicationCheck => "validating"
  | parallelGeneration => "generating"
  | auditorGate => "auditing"
  | merging => "merging"
  | resolved => "resolved"
  | failed => "failed"
  | awaitingApproval => "awaiting_approval"

def nameStr : TaskPhase → String
  | bootstrap => "Bootstrap"
  | complexityAssessed => "ComplexityAssessment"
  | provisioning => "TopologyProvisioning"
  | multiplicationCheck => "MultiplicationCheck"
  | parallelGeneration => "ParallelGeneration"
  | auditorGate => "AuditorGate"
  | merging => "Merging"
  | resolved => "Resolved"
  | failed => "Failed"
  | awaitingApproval => "AwaitingApproval"

def tryFromNameStr (s : String) : Option TaskPhase :=
  [bootstrap, provisioning, multiplicationCheck, parallelGeneration, auditorGate, merging,
    resolved, failed, complexityAssessed, awaitingApproval].find? fun phase => phase.nameStr == s

def terminal (phase : TaskPhase) : Bool := phase == resolved || phase == failed

theorem toNat_injective {p q : TaskPhase} (h : p.toNat = q.toNat) : p = q := by
  cases p <;> cases q <;> first | rfl | cases h

/-- Every phase is found again by its name. -/
theorem tryFromNameStr_nameStr (phase : TaskPhase) : tryFromNameStr phase.nameStr = some phase := by
  cases phase <;> decide

end TaskPhase

structure TaskState where
  taskId : TaskId
  tenantId : TenantId
  status : String
  phase : Nat
  phaseName : String
  explorersCompleted : Nat
  explorersTotal : Nat
  proposalsValid : Nat
  proposalsPruned : Nat
  autonomicRetries : Nat
  deriving DecidableEq

namespace TaskState

/-- `TaskState::new`. -/
def new (taskId : TaskId) (tenantId : TenantId) : TaskState :=
  { taskId := taskId
    tenantId := tenantId
    status := "pending"
    phase := TaskPhase.bootstrap.toNat
    phaseName := TaskPhase.bootstrap.nameStr
    explorersCompleted := 0
    explorersTotal := 0
    proposalsValid := 0
    proposalsPruned := 0
    autonomicRetries := 0 }

/-- The three fields that every writer of a phase sets together. -/
def withPhase (state : TaskState) (phase : TaskPhase) : TaskState :=
  { state with
    status := phase.statusStr
    phase := phase.toNat
    phaseName := phase.nameStr }

@[simp] theorem withPhase_tenantId (state : TaskState) (phase : TaskPhase) :
    (state.withPhase phase).tenantId = state.tenantId := rfl

@[simp] theorem withPhase_phase (state : TaskState) (phase : TaskPhase) :
    (state.withPhase phase).phase = phase.toNat := rfl

@[simp] theorem withPhase_status (state : TaskState) (phase : TaskPhase) :
    (state.withPhase phase).status = phase.statusStr := rfl

end TaskState

abbrev TaskStore := TaskId → Option TaskState

namespace TaskStore

variable (store : TaskStore) (id : TaskId)

def insert (state : TaskState) : TaskStore := Function.update store id (some state)

/-- `get_mut`: the entry is changed in place, if there is one. -/
def modify (change : TaskState → TaskState) : TaskStore :=
  Function.update store id ((store id).map change)

def get : Option TaskState := store id

/-- `get_for_tenant`. -/
def getForTenant (tenant : TenantId) : Option TaskState :=
  (store id).filter fun entry => decide (entry.tenantId = tenant)

def setPhase (phase : TaskPhase) (explorerCount retries : Nat) : TaskStore :=
  store.modify id fun entry =>
    { entry.withPhase phase with
      explorersTotal := explorerCount
      autonomicRetries := retries }

def incrementCompleted : TaskStore :=
  store.modify id fun entry => { entry with explorersCompleted := entry.explorersCompleted + 1 }

def recordValidation (valid : Bool) : TaskStore :=
  store.modify id fun entry =>
    if valid then { entry with proposalsValid := entry.proposalsValid + 1 }
    else { entry with proposalsPruned := entry.proposalsPruned + 1 }

def markResolved : TaskStore := store.modify id (·.withPhase .resolved)

def markFailed : TaskStore := store.modify id (·.withPhase .failed)

def setAwaitingApproval : TaskStore := store.modify id (·.withPhase .awaitingApproval)

/-- `is_active`. -/
def isActive : Bool :=
  match store id with
  | some entry =>
      entry.phase != TaskPhase.resolved.toNat && entry.phase != TaskPhase.failed.toNat
  | none => false

end TaskStore

end ControlPlane.Source.Tasks

/-!
## Replay of a task's event log

Embeds `apply_event` and `SessionJournal::replay` of
`crates/h2ai-orchestrator/src/session_journal.rs` and `recover_task` of
`crates/h2ai-api/src/routes/recovery.rs`. The backend is a record of its answers: the
snapshot, whose JSON may not deserialize, and the items the event stream delivers
after a sequence number before it ends or stays silent for 200 ms. Of an event the
model keeps what `apply_event` reads.
-/
namespace ControlPlane.Source.Tasks

inductive H2AIEvent where
  | taskBootstrapped
  | taskComplexityAssessed
  | topologyProvisioned (explorerConfigs retryCount : Nat)
  | multiplicationConditionFailed
  | proposal
  | proposalFailed
  | verificationScored (passed : Bool)
  | branchPruned
  | zeroSurvival
  | selectionResolved
  | mergeResolved
  | taskFailed (topologiesTried : Nat)
  /-- Any event that leaves the task state as it is. -/
  | other
  deriving DecidableEq, Repr

/-- `MergeResolved` and `TaskFailed`. -/
def H2AIEvent.terminal : H2AIEvent → Bool
  | mergeResolved => true
  | taskFailed _ => true
  | _ => false

/-- `SessionJournal::apply_event`. -/
def applyEvent (state : TaskState) : H2AIEvent → TaskState
  | .taskBootstrapped => state.withPhase .bootstrap
  | .taskComplexityAssessed => state.withPhase .complexityAssessed
  | .topologyProvisioned explorerConfigs retryCount =>
      { state.withPhase .provisioning with
        explorersTotal := explorerConfigs
        autonomicRetries := retryCount }
  | .multiplicationConditionFailed => state.withPhase .multiplicationCheck
  | .proposal | .proposalFailed =>
      { state.withPhase .parallelGeneration with
        explorersCompleted := state.explorersCompleted + 1 }
  | .verificationScored passed =>
      if passed then
        { state.withPhase .auditorGate with proposalsValid := state.proposalsValid + 1 }
      else { state.withPhase .auditorGate with proposalsPruned := state.proposalsPruned + 1 }
  | .branchPruned => { state with proposalsPruned := state.proposalsPruned + 1 }
  | .zeroSurvival => { state with autonomicRetries := state.autonomicRetries + 1 }
  | .selectionResolved => state.withPhase .merging
  | .mergeResolved => state.withPhase .resolved
  | .taskFailed topologiesTried =>
      { state.withPhase .failed with autonomicRetries := topologiesTried }
  | .other => state

/-- No event changes whose task it is. -/
@[simp] theorem applyEvent_tenantId (state : TaskState) (event : H2AIEvent) :
    (applyEvent state event).tenantId = state.tenantId := by
  cases event with
  | verificationScored passed => cases passed <;> rfl
  | _ => rfl

/-! ## Replay -/

structure TaskSnapshot where
  lastSequence : Nat
  /-- `task_state_json`, `none` where it does not deserialize. -/
  taskState : Option TaskState
  deriving DecidableEq

abbrev StreamItem := Except String H2AIEvent

structure JournalBackend where
  getSnapshot : TaskId → Except String (Option TaskSnapshot)
  tailTaskEvents : TaskId → Nat → Except String (List StreamItem)

/-- The state and the sequence number that the replay starts from. -/
def replayStart (taskId : TaskId) (snapshot : Except String (Option TaskSnapshot)) :
    TaskState × Nat :=
  match snapshot with
  | .ok (some ⟨lastSequence, some restored⟩) => (restored, lastSequence)
  | _ => (TaskState.new taskId TenantId.defaultTenant, 0)

/-- The loop over the stream: the state and `events_seen`. -/
def replayItems : TaskState → Nat → List StreamItem → Except String (TaskState × Nat)
  | state, seen, [] => .ok (state, seen)
  | _, _, .error e :: _ => .error e
  | state, seen, .ok event :: rest =>
      if event.terminal then .ok (applyEvent state event, seen + 1)
      else replayItems (applyEvent state event) (seen + 1) rest

/-- `SessionJournal::replay`; the journal of a server without NATS recovers nothing. -/
def replay (nats : Option JournalBackend) (taskId : TaskId) : Except String (Option TaskState) :=
  match nats with
  | none => .ok none
  | some backend =>
      let start := replayStart taskId (backend.getSnapshot taskId)
      match backend.tailTaskEvents taskId start.2 with
      | .error e => .error e
      | .ok items =>
          (replayItems start.1 0 items).map fun result =>
            if result.2 == 0 && start.2 == 0 then none else some result.1

/-! ## The recovery route -/

inductive ApiError where
  | invalidRequest (message : String)
  | natsUnavailable (message : String)
  | taskNotFound (taskId : String)
  | taskAlreadyResolved (taskId : String)
  deriving DecidableEq, Repr

/-- `recover_task`: the answer and the store after it. `parseUuid` is `Uuid::parse_str`. -/
def recoverTask (parseUuid : String → Option TaskId) (journal : Option JournalBackend)
    (store : TaskStore) (tenantId taskId : String) : Except ApiError TaskState × TaskStore :=
  match parseUuid taskId with
  | none => (.error (.invalidRequest ("invalid task_id: " ++ taskId)), store)
  | some tid =>
      let tenant : TenantId := ⟨tenantId⟩
      match replay journal tid with
      | .error e => (.error (.natsUnavailable ("replay failed: transport error: " ++ e)), store)
      | .ok none => (.error (.taskNotFound taskId), store)
      | .ok (some recovered) =>
          if recovered.tenantId ≠ tenant then (.error (.taskNotFound taskId), store)
          else if (store.getForTenant tid tenant).isNone then
            (.ok recovered, store.insert tid recovered)
          else (.ok recovered, store)

end ControlPlane.Source.Tasks
