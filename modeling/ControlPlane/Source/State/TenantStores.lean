import ControlPlane.Source.Identity
import Mathlib.Data.List.AList
import Mathlib.Data.Rat.Defs

/-!
# Per-tenant state in NATS

Embeds the tenant-scoped methods of `NatsClient` in `crates/h2ai-state/src/nats.rs`:
reasoning checkpoints, task meta-states and conflict accumulators in the buckets of
`tenant_bucket_name`, estimator, bandit and skill state under `{tenant}/...` keys, and
the signals of `publish_signal` and `subscribe_signals`. The buckets exist, the parts
of a record that no method reads are its `body`, and a record of one kind does not
decode as one of another kind.

Every stored value carries the tenant for whom it was written. No method reads it; the
guarantees speak about it.
-/
namespace ControlPlane.Source.State

/-- The part of `StateConfig` that names buckets and subjects. -/
structure StateConfig where
  estimatorBucket : String
  skillsBucket : String
  reasoningCheckpointBucketPrefix : String
  taskMetaStateBucketPrefix : String
  conflictBetaBucketPrefix : String
  signalsSubjectPrefix : String
  deriving DecidableEq, Repr

/-- The buckets and the subject prefix of `reference.toml`. -/
def referenceStateConfig : StateConfig :=
  { estimatorBucket := "H2AI_ESTIMATOR"
    skillsBucket := "H2AI_SKILLS"
    reasoningCheckpointBucketPrefix := "H2AI_CHECKPOINT"
    taskMetaStateBucketPrefix := "H2AI_META"
    conflictBetaBucketPrefix := "H2AI_CONFLICT"
    signalsSubjectPrefix := "h2ai.signals" }

structure TaskReasoningCheckpoint where
  taskId : TaskId
  tenantId : TenantId
  body : String
  deriving DecidableEq

structure TaskMetaState where
  taskId : TaskId
  tenantId : TenantId
  body : String
  deriving DecidableEq

structure ConflictRateAccumulator where
  tenantId : TenantId
  body : String
  deriving DecidableEq

structure TenantSignal where
  taskId : TaskId
  tenantId : TenantId
  body : String
  deriving DecidableEq

inductive Record where
  | reasoningCheckpoint (checkpoint : TaskReasoningCheckpoint)
  | taskMetaState (state : TaskMetaState)
  | conflictAccumulator (acc : ConflictRateAccumulator)
  | taoEstimator (ema : ℚ) (count : Nat)
  | json (bytes : String)
  deriving DecidableEq

structure Written (α : Type) where
  writer : TenantId
  data : α
  deriving DecidableEq

/-- The key-value buckets, by bucket and key, and the signal stream, by subject. -/
structure NatsState where
  kv : AList fun _ : String × String => Written Record
  signals : List (String × Written TenantSignal)

def NatsState.empty : NatsState := ⟨∅, []⟩

inductive NatsError where
  | serialize
  deriving DecidableEq, Repr

section Methods

variable (isAlphanumeric : Char → Bool) (cfg : StateConfig) (nats : NatsState)

/-- `tenant_bucket_name`. -/
def tenantBucketName (bucketPrefix : String) (tenant : TenantId) : String :=
  bucketPrefix ++ "_" ++ tenant.bucketSafe isAlphanumeric

/-- The key `{tenant}/{suffix}` of the estimator and skill buckets. -/
def tenantKey (tenant : TenantId) (suffix : String) : String :=
  tenant.bucketSafe isAlphanumeric ++ "/" ++ suffix

def signalSubject (tenant : TenantId) (taskId : TaskId) : String :=
  cfg.signalsSubjectPrefix ++ "." ++ tenant.bucketSafe isAlphanumeric ++ "." ++ taskId.text

def kvPut (bucket key : String) (writer : TenantId) (data : Record) : NatsState :=
  { nats with kv := nats.kv.insert (bucket, key) ⟨writer, data⟩ }

/-- `kv.get` and the decoding of what it found. -/
def kvGet {α : Type} (decode : Record → Option α) (bucket key : String) :
    Except NatsError (Option (Written α)) :=
  match nats.kv.lookup (bucket, key) with
  | none => .ok none
  | some entry =>
      match decode entry.data with
      | some data => .ok (some ⟨entry.writer, data⟩)
      | none => .error .serialize

/-! ## Reasoning checkpoints, meta-states and conflict accumulators -/

def putReasoningCheckpoint (checkpoint : TaskReasoningCheckpoint) : NatsState :=
  kvPut nats
    (tenantBucketName isAlphanumeric cfg.reasoningCheckpointBucketPrefix checkpoint.tenantId)
    checkpoint.taskId.text checkpoint.tenantId (.reasoningCheckpoint checkpoint)

def Record.asReasoningCheckpoint : Record → Option TaskReasoningCheckpoint
  | .reasoningCheckpoint checkpoint => some checkpoint
  | _ => none

def getReasoningCheckpoint (taskId : TaskId) (tenant : TenantId) :
    Except NatsError (Option (Written TaskReasoningCheckpoint)) :=
  kvGet nats Record.asReasoningCheckpoint
    (tenantBucketName isAlphanumeric cfg.reasoningCheckpointBucketPrefix tenant) taskId.text

def putTaskMetaState (state : TaskMetaState) : NatsState :=
  kvPut nats (tenantBucketName isAlphanumeric cfg.taskMetaStateBucketPrefix state.tenantId)
    state.taskId.text state.tenantId (.taskMetaState state)

def Record.asTaskMetaState : Record → Option TaskMetaState
  | .taskMetaState state => some state
  | _ => none

def getTaskMetaState (taskId : TaskId) (tenant : TenantId) :
    Except NatsError (Option (Written TaskMetaState)) :=
  kvGet nats Record.asTaskMetaState
    (tenantBucketName isAlphanumeric cfg.taskMetaStateBucketPrefix tenant) taskId.text

/-- `list_task_meta_states`: the first `limit` keys of the bucket, oldest write first;
what does not decode is skipped. -/
def listTaskMetaStates (tenant : TenantId) (limit : Nat) : List (Written TaskMetaState) :=
  let bucket := tenantBucketName isAlphanumeric cfg.taskMetaStateBucketPrefix tenant
  let keys := (nats.kv.keys.reverse.filter fun place => place.1 == bucket).map (·.2)
  (keys.take limit).filterMap fun key =>
    match kvGet nats Record.asTaskMetaState bucket key with
    | .ok found => found
    | .error _ => none

/-- The prefix that the distillation trigger of `post_run` lists. -/
def distillationPrefix (tenant : TenantId) : String := "H2AI_META_" ++ tenant.name

def conflictAccumulatorKey : String := "accumulator"

def putConflictAccumulator (acc : ConflictRateAccumulator) : NatsState :=
  kvPut nats (tenantBucketName isAlphanumeric cfg.conflictBetaBucketPrefix acc.tenantId)
    conflictAccumulatorKey acc.tenantId (.conflictAccumulator acc)

def Record.asConflictAccumulator : Record → Option ConflictRateAccumulator
  | .conflictAccumulator acc => some acc
  | _ => none

def getConflictAccumulator (tenant : TenantId) :
    Except NatsError (Option (Written ConflictRateAccumulator)) :=
  kvGet nats Record.asConflictAccumulator
    (tenantBucketName isAlphanumeric cfg.conflictBetaBucketPrefix tenant) conflictAccumulatorKey

/-! ## Estimator, bandit and skill state -/

def putTaoEstimatorState (tenant : TenantId) (ema : ℚ) (count : Nat) : NatsState :=
  kvPut nats cfg.estimatorBucket (tenantKey isAlphanumeric tenant "tao") tenant
    (.taoEstimator ema count)

def Record.asTaoEstimator : Record → Option (ℚ × Nat)
  | .taoEstimator ema count => some (ema, count)
  | _ => none

def getTaoEstimatorState (tenant : TenantId) : Except NatsError (Option (Written (ℚ × Nat))) :=
  kvGet nats Record.asTaoEstimator cfg.estimatorBucket (tenantKey isAlphanumeric tenant "tao")

def putBanditState (tenant : TenantId) (jsonBytes : String) : NatsState :=
  kvPut nats cfg.estimatorBucket (tenantKey isAlphanumeric tenant "bandit") tenant
    (.json jsonBytes)

/-- `get_bandit_state` returns the bytes as they are. -/
def getBanditState (tenant : TenantId) : Except NatsError (Option (Written Record)) :=
  kvGet nats some cfg.estimatorBucket (tenantKey isAlphanumeric tenant "bandit")

def putSkillNodes (tenant : TenantId) (jsonBytes : String) : NatsState :=
  kvPut nats cfg.skillsBucket (tenantKey isAlphanumeric tenant "skills") tenant (.json jsonBytes)

/-- `get_skill_nodes`; a missing entry is the empty list there. -/
def getSkillNodes (tenant : TenantId) : Except NatsError (Option (Written Record)) :=
  kvGet nats some cfg.skillsBucket (tenantKey isAlphanumeric tenant "skills")

/-! ## Signals -/

def publishSignal (signal : TenantSignal) : NatsState :=
  { nats with signals := nats.signals ++
      [(signalSubject isAlphanumeric cfg signal.tenantId signal.taskId,
        ⟨signal.tenantId, signal⟩)] }

/-- The messages of the durable consumer of `subscribe_signals`: everything on the
stream under the filter subject. -/
def subscribeSignals (taskId : TaskId) (tenant : TenantId) : List (Written TenantSignal) :=
  (nats.signals.filter fun message =>
    message.1 == signalSubject isAlphanumeric cfg tenant taskId).map (·.2)

end Methods

/-! ## Runs -/

inductive StoreWrite where
  | reasoningCheckpoint (checkpoint : TaskReasoningCheckpoint)
  | taskMetaState (state : TaskMetaState)
  | conflictAccumulator (acc : ConflictRateAccumulator)
  | taoEstimatorState (tenant : TenantId) (ema : ℚ) (count : Nat)
  | banditState (tenant : TenantId) (jsonBytes : String)
  | skillNodes (tenant : TenantId) (jsonBytes : String)
  | signal (signal : TenantSignal)

inductive StoreRead where
  | reasoningCheckpoint (taskId : TaskId)
  | taskMetaState (taskId : TaskId)
  | taskMetaStates (limit : Nat)
  | conflictAccumulator
  | taoEstimatorState
  | banditState
  | skillNodes
  | signals (taskId : TaskId)

def applyWrite (isAlphanumeric : Char → Bool) (cfg : StateConfig) (nats : NatsState) :
    StoreWrite → NatsState
  | .reasoningCheckpoint checkpoint => putReasoningCheckpoint isAlphanumeric cfg nats checkpoint
  | .taskMetaState state => putTaskMetaState isAlphanumeric cfg nats state
  | .conflictAccumulator acc => putConflictAccumulator isAlphanumeric cfg nats acc
  | .taoEstimatorState tenant ema count =>
      putTaoEstimatorState isAlphanumeric cfg nats tenant ema count
  | .banditState tenant jsonBytes => putBanditState isAlphanumeric cfg nats tenant jsonBytes
  | .skillNodes tenant jsonBytes => putSkillNodes isAlphanumeric cfg nats tenant jsonBytes
  | .signal signal => publishSignal isAlphanumeric cfg nats signal

def runWrites (isAlphanumeric : Char → Bool) (cfg : StateConfig) (writes : List StoreWrite) :
    NatsState :=
  writes.foldl (applyWrite isAlphanumeric cfg) NatsState.empty

def foundWriters {α : Type} : Except NatsError (Option (Written α)) → List TenantId
  | .ok (some entry) => [entry.writer]
  | _ => []

/-- The tenants for whom the data was written that a read returns to a tenant. -/
def returnedWriters (isAlphanumeric : Char → Bool) (cfg : StateConfig) (nats : NatsState)
    (tenant : TenantId) : StoreRead → List TenantId
  | .reasoningCheckpoint taskId =>
      foundWriters (getReasoningCheckpoint isAlphanumeric cfg nats taskId tenant)
  | .taskMetaState taskId => foundWriters (getTaskMetaState isAlphanumeric cfg nats taskId tenant)
  | .taskMetaStates limit =>
      (listTaskMetaStates isAlphanumeric cfg nats tenant limit).map (·.writer)
  | .conflictAccumulator => foundWriters (getConflictAccumulator isAlphanumeric cfg nats tenant)
  | .taoEstimatorState => foundWriters (getTaoEstimatorState isAlphanumeric cfg nats tenant)
  | .banditState => foundWriters (getBanditState isAlphanumeric cfg nats tenant)
  | .skillNodes => foundWriters (getSkillNodes isAlphanumeric cfg nats tenant)
  | .signals taskId => (subscribeSignals isAlphanumeric cfg nats taskId tenant).map (·.writer)

end ControlPlane.Source.State
