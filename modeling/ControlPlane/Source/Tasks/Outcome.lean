import ControlPlane.Lib.Runs
import ControlPlane.Source.Tasks.TaskStore
import ControlPlane.Source.Tasks.TaskRun

/-!
# Publishers of a task's outcome

The steps around the terminal event of one task: `run_task_pipeline` with its failure
branches and `post_run` (`crates/h2ai-api/src/task_pipeline.rs`), `merge_task`
(`routes/tasks.rs`) and `spawn_resume` (`recovery.rs`). A publisher works on the store of
its node; the nodes share the event stream and the checkpoint. `publish_event` does not
wait for the acknowledgement of the stream, so whether the event is stored and whether
the call answers `Ok` are two inputs.
-/
namespace ControlPlane.Source.Tasks

inductive Publisher where
  /-- The pipeline in front of its terminal event. -/
  | running (node : String)
  | runMarking (node : String) (resolved : Bool)
  /-- A merge request that has passed its check. -/
  | mergeChecked (node : String)
  | mergeMarking (node : String)
  /-- The guard of a resume, behind this many items of the stream. -/
  | guarding (node : String) (position : Nat)
  | resumed (node : String)
  | resumeMarking (node : String)
  | ended (node : String)
  deriving DecidableEq

def Publisher.node : Publisher → String
  | running node | runMarking node _ | mergeChecked node | mergeMarking node
  | guarding node _ | resumed node | resumeMarking node | ended node => node

/-- Has been let through by its check, and has not published. -/
def Publisher.owes : Publisher → Bool
  | running _ | mergeChecked _ | resumed _ => true
  | _ => false

structure OutcomeSystem where
  stream : List H2AIEvent
  stores : String → TaskStore
  /-- The task has a checkpoint. -/
  checkpoint : Bool
  submitted : Bool
  publishers : List Publisher

namespace OutcomeSystem

/-- The event is stored, or lost. -/
def append (s : OutcomeSystem) (event : H2AIEvent) (stored : Bool) : OutcomeSystem :=
  { s with stream := if stored then s.stream ++ [event] else s.stream }

def write (s : OutcomeSystem) (id : TaskId) (node : String) (op : StoreOp) : OutcomeSystem :=
  { s with stores := Function.update s.stores node (op.apply (s.stores node) id) }

/-- `delete_task_checkpoint`; its errors are logged. -/
def collect (s : OutcomeSystem) (deleted : Bool) : OutcomeSystem :=
  { s with checkpoint := s.checkpoint && !deleted }

/-- Before the task is submitted. -/
def initial (stores : String → TaskStore) : OutcomeSystem := ⟨[], stores, false, false, []⟩

end OutcomeSystem

inductive PublisherAction where
  /-- An operation of the engine, or the registration of a resumed task. -/
  | storeOp (op : StoreOp)
  /-- Any event that is not terminal. -/
  | event (event : H2AIEvent)
  | putCheckpoint
  /-- `MergeResolved`. -/
  | publish (stored acknowledged : Bool)
  /-- `TaskFailed`. -/
  | publishFailed (stored : Bool)
  /-- The task is marked; `deleted` says that its checkpoint is gone. -/
  | mark (deleted : Bool)
  | read (readable deleted : Bool)
  | endOfStream
  /-- `run_from_checkpoint` failed. -/
  | fail (deleted : Bool)
  /-- No calibration, a panic, a request that is dropped. -/
  | stop
  deriving DecidableEq

/-- A step of one publisher, and what becomes of it. -/
def advance (id : TaskId) (s : OutcomeSystem) :
    Publisher → PublisherAction → Option (OutcomeSystem × Publisher)
  | .running node, .storeOp op => some (s.write id node op, .running node)
  | .running node, .event event =>
      if event.terminal then none else some (s.append event true, .running node)
  | .running node, .putCheckpoint => some ({ s with checkpoint := true }, .running node)
  | .running node, .publish stored _ =>
      some (s.append .mergeResolved stored, .runMarking node true)
  | .running node, .publishFailed stored =>
      -- `topologies_tried` is empty
      some (s.append (.taskFailed 0) stored, .runMarking node false)
  | .runMarking node resolved, .mark deleted =>
      some ((s.write id node (if resolved then .markResolved else .markFailed)).collect deleted,
        .ended node)
  | .mergeChecked node, .publish stored acknowledged =>
      some (s.append .mergeResolved stored,
        if acknowledged then .mergeMarking node else .ended node)
  | .mergeMarking node, .mark _ => some (s.write id node .markResolved, .ended node)
  | .guarding node position, .read readable deleted =>
      match s.stream[position]? with
      | none => none
      | some event =>
          if readable && event.terminal then some (s.collect deleted, .ended node)
          else some (s, .guarding node (position + 1))
  | .guarding node _, .endOfStream => some (s, .resumed node)
  | .resumed node, .storeOp op => some (s.write id node op, .resumed node)
  | .resumed node, .event event =>
      if event.terminal then none else some (s.append event true, .resumed node)
  | .resumed node, .publish stored _ =>
      some (s.append .mergeResolved stored, .resumeMarking node)
  | .resumed node, .fail deleted =>
      some ((s.write id node .markFailed).collect deleted, .ended node)
  | .resumeMarking node, .mark deleted =>
      some ((s.write id node .markResolved).collect deleted, .ended node)
  | publisher, .stop => some (s, .ended publisher.node)
  | _, _ => none

inductive OutcomeAction where
  | submit (node : String) (tenant : TenantId)
  | mergeRequest (node : String) (tenant : TenantId)
  /-- `recover_in_flight_tasks` finds the checkpoint, its own or one it has claimed;
  `opens` says that the event stream could be opened. -/
  | resumeStart (node : String) (opens : Bool)
  | crash (node : String)
  | advance (index : Nat) (action : PublisherAction)
  deriving DecidableEq

def outcomeStep (id : TaskId) (s : OutcomeSystem) : OutcomeAction → Option OutcomeSystem
  | .submit node tenant =>
      if s.submitted then none
      else
        some { s.write id node (.insert tenant) with
          submitted := true
          publishers := s.publishers ++ [.running node] }
  | .mergeRequest node tenant =>
      some (if mergeAccepted (s.stores node) id tenant then
        { s with publishers := s.publishers ++ [.mergeChecked node] } else s)
  | .resumeStart node opens =>
      if s.checkpoint then
        some { s with
          publishers := s.publishers ++ [if opens then .guarding node 0 else .resumed node] }
      else none
  | .crash node =>
      some { s with
        stores := Function.update s.stores node fun _ => none
        publishers := s.publishers.map fun p => if p.node = node then .ended node else p }
  | .advance index action =>
      match s.publishers[index]? with
      | none => none
      | some publisher =>
          (advance id s publisher action).map fun (t, publisher') =>
            { t with publishers := t.publishers.set index publisher' }

end ControlPlane.Source.Tasks
