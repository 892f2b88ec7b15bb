import ControlPlane.Lib.KeyValue
import ControlPlane.Lib.Runs
import ControlPlane.Source.Text
import Mathlib.Algebra.Order.Field.Rat

/-!
# Crash recovery

Embeds `TaskCheckpoint` of `crates/h2ai-types/src/checkpoint.rs`, the checkpoint
methods of `NatsClient` in `crates/h2ai-state/src/nats.rs`,
`recover_in_flight_tasks` of `crates/h2ai-api/src/recovery.rs`, and the one place
that writes checkpoints outside of recovery, the task pipeline
(`crates/h2ai-api/src/task_pipeline.rs`). JSON and zstd are taken as a round
trip, and keys do not expire.

A node is its `local_node_id`. Every step of every node is an action of its own,
so that listings can be stale: a listing reads one key at a time, and the future
of a listed entry runs later.
-/
namespace ControlPlane.Source.State.Recovery

open Lib

structure ConstraintSnapshot where
  wikiRevision : Nat
  resolvedIds : List String
  evaluatedIds : List String
  violationIds : List String
  deriving DecidableEq, Repr

structure TaskCheckpoint where
  taskId : String
  phase : String
  nodeId : String
  leaseSeq : Nat
  proposals : List String
  auditorSurvivors : List Nat
  resolvedOutput : Option String
  manifestJson : String
  objectStoreRef : Option String
  createdAtMs : Nat
  updatedAtMs : Nat
  constraintSnapshot : Option ConstraintSnapshot
  jEff : Option ℚ
  deriving DecidableEq, Repr

abbrev Checkpoints := Bucket String TaskCheckpoint

/-- `put_task_checkpoint`: the new bucket and revision, `none` for an error. -/
def putTaskCheckpoint (kv : Checkpoints) (checkpoint : TaskCheckpoint)
    (expectedRevision : Option Nat) : Option (Checkpoints × Nat) :=
  match expectedRevision with
  | none => some (kv.put checkpoint.taskId checkpoint)
  | some revision => kv.update checkpoint.taskId checkpoint revision

/-- `get_task_checkpoint`: the stored record, with the `lease_seq` it was stored
with; the revision of the entry is not read. -/
def getTaskCheckpoint (kv : Checkpoints) (taskId : String) : Option TaskCheckpoint :=
  (kv.slots taskId).value

/-! ## The task pipeline -/

/-- What the pipeline knows when a task has merged. -/
structure MergedTask where
  taskId : String
  resolvedOutput : String
  manifestJson : String
  constraintSnapshot : ConstraintSnapshot
  jEff : Option ℚ
  nowMs : Nat
  deriving DecidableEq, Repr

/-- The checkpoint the pipeline writes, by an unconditional put. -/
def pipelineCheckpoint (nodeId : String) (task : MergedTask) : TaskCheckpoint :=
  { taskId := task.taskId
    phase := "Merging"
    nodeId := nodeId
    leaseSeq := 0
    proposals := []
    auditorSurvivors := []
    resolvedOutput := some task.resolvedOutput
    manifestJson := task.manifestJson
    objectStoreRef := none
    createdAtMs := task.nowMs
    updatedAtMs := task.nowMs
    constraintSnapshot := some task.constraintSnapshot
    jEff := task.jEff }

/-! ## Recovery -/

/-- The future of one listed entry: the bucket afterwards, and the checkpoint that
`spawn_resume` is called with, if it is called. -/
def recoverEntry (kv : Checkpoints) (myNodeId : String) (checkpoint : TaskCheckpoint) :
    Checkpoints × Option TaskCheckpoint :=
  if checkpoint.nodeId = myNodeId then (kv, some checkpoint)
  else
    let claimed := { checkpoint with nodeId := myNodeId }
    match putTaskCheckpoint kv claimed (some checkpoint.leaseSeq) with
    | some (kv', newSeq) => (kv', some { claimed with leaseSeq := newSeq })
    | none => (kv, none)

structure RecoveryState where
  kv : Checkpoints
  /-- The node whose pipeline a task was accepted by. -/
  acceptedBy : String → Option String
  /-- Listed entries whose future has not run yet. -/
  listed : List (String × TaskCheckpoint)
  /-- The calls of `spawn_resume`: the calling node and the checkpoint. -/
  resumed : List (String × TaskCheckpoint)

inductive RecoveryAction where
  /-- A node accepts a task under a new id. -/
  | accept (nodeId taskId : String)
  | checkpoint (nodeId : String) (task : MergedTask)
  /-- `delete_task_checkpoint`, from a pipeline or from a resumed run. -/
  | collect (taskId : String)
  /-- One key of `list_task_checkpoints`. -/
  | list (nodeId taskId : String)
  | recover (index : Nat)
  /-- A node goes down; it may list again when it is back. -/
  | crash (nodeId : String)
  deriving DecidableEq, Repr

def step (s : RecoveryState) : RecoveryAction → Option RecoveryState
  | .accept nodeId taskId =>
      match s.acceptedBy taskId with
      | some _ => none
      | none => some { s with acceptedBy := Function.update s.acceptedBy taskId (some nodeId) }
  | .checkpoint nodeId task =>
      if s.acceptedBy task.taskId = some nodeId then
        (putTaskCheckpoint s.kv (pipelineCheckpoint nodeId task) none).map fun written =>
          { s with kv := written.1 }
      else none
  | .collect taskId => some { s with kv := s.kv.delete taskId }
  | .list nodeId taskId =>
      match getTaskCheckpoint s.kv taskId with
      | some checkpoint => some { s with listed := (nodeId, checkpoint) :: s.listed }
      | none => some s
  | .recover index =>
      match s.listed[index]? with
      | none => none
      | some (nodeId, checkpoint) =>
          let (kv, resumes) := recoverEntry s.kv nodeId checkpoint
          some { s with
            kv := kv
            listed := s.listed.eraseIdx index
            resumed := (resumes.toList.map fun c => (nodeId, c)) ++ s.resumed }
  | .crash nodeId =>
      some { s with listed := s.listed.filter fun entry => decide (entry.1 ≠ nodeId) }

def init : RecoveryState := ⟨Bucket.empty, fun _ => none, [], []⟩

end ControlPlane.Source.State.Recovery

/-!
# Probe leases

Embeds `NatsClient::acquire_probe_lease` of `crates/h2ai-state/src/nats.rs`: the
calls for one adapter profile and one `ttl_secs`, each cut at its KV operations
(`get`, `delete`, `create`), so that the steps of any number of calls can be
interleaved. `now_secs` is read once, before the first operation. A value that
is not UTF-8 is treated like a text that is not a number.
-/
namespace ControlPlane.Source.State.ProbeLease

open Lib

/-- Where one call stands. -/
inductive Call where
  | idle
  /-- The clock is read, `get` is next. -/
  | started (nowSecs : Nat)
  /-- `get` returned a stale lease, `delete` is next. The revision is part of the
  entry `get` returned; the code does not look at it. -/
  | stale (nowSecs revision : Nat)
  /-- `create` is next. -/
  | creating (nowSecs : Nat)
  | returned (won : Bool)
  deriving DecidableEq, Repr

/-- What follows `get`: an error or a value that is no number leads to `create`. -/
def afterGet (ttlSecs nowSecs : Nat) (slot : Slot String) : Call :=
  match slot.value with
  | none => .creating nowSecs
  | some text =>
      match Text.parseUsize text.toList with
      | none => .creating nowSecs
      | some acquiredAt =>
          -- `saturating_sub` is subtraction on `Nat`
          if nowSecs - acquiredAt < ttlSecs then .returned false
          else .stale nowSecs slot.revision

/-- `now_secs.to_string()`. -/
def payload (nowSecs : Nat) : String := Nat.repr nowSecs

/-- The bucket, the wall clock in seconds, the calls, and who received `true` when. -/
structure LeaseState where
  kv : Bucket String String
  clock : Nat
  calls : Nat → Call
  wins : List (Nat × Nat)

inductive LeaseAction where
  | tick
  | start (caller : Nat)
  /-- `ok = false`: the operation answers with an error. -/
  | get (caller : Nat) (ok : Bool)
  | delete (caller : Nat) (ok : Bool)
  | create (caller : Nat)
  deriving DecidableEq, Repr

def LeaseState.goto (s : LeaseState) (caller : Nat) (call : Call) : LeaseState :=
  { s with calls := Function.update s.calls caller call }

/-- One operation of one call; `none` where the call is not at that operation. -/
def step (adapterProfile : String) (ttlSecs : Nat) (s : LeaseState) :
    LeaseAction → Option LeaseState
  | .tick => some { s with clock := s.clock + 1 }
  | .start caller =>
      match s.calls caller with
      | .idle => some (s.goto caller (.started s.clock))
      | _ => none
  | .get caller ok =>
      match s.calls caller with
      | .started nowSecs =>
          some (s.goto caller (if ok then afterGet ttlSecs nowSecs (s.kv.slots adapterProfile)
            else .creating nowSecs))
      | _ => none
  | .delete caller ok =>
      match s.calls caller with
      | .stale nowSecs _ =>
          -- `let _ = kv.delete(key).await`: an error is ignored
          let kv := if ok then s.kv.delete adapterProfile else s.kv
          some ({ s with kv := kv }.goto caller (.creating nowSecs))
      | _ => none
  | .create caller =>
      match s.calls caller with
      | .creating nowSecs =>
          match s.kv.create adapterProfile (payload nowSecs) with
          | some (kv, _) =>
              some ({ s with kv := kv, wins := (caller, s.clock) :: s.wins }.goto caller
                (.returned true))
          | none => some (s.goto caller (.returned false))
      | _ => none

/-- A bucket with any content, and calls that have not been made yet. -/
def init (kv : Bucket String String) (clock : Nat) : LeaseState :=
  ⟨kv, clock, fun _ => .idle, []⟩

end ControlPlane.Source.State.ProbeLease
