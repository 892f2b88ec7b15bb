import ControlPlane.Lib.Runs
import ControlPlane.Source.Adapters.Chain
import ControlPlane.Source.Agent.Scheduling

/-!
# Dispatch to edge agents

Embeds `NatsDispatchAdapter::execute` (`crates/h2ai-orchestrator/src/nats_dispatch_adapter.rs`)
with `offload_if_large` (`payload_store.rs`), `publish_task_payload` and
`await_task_result_once` (`crates/h2ai-state/src/nats.rs`), the heartbeat, the cleanup and the
termination of `NatsAgentProvider`, and the loop of an agent process
(`crates/h2ai-agent/src/dispatch.rs`, `heartbeat.rs` and `main.rs`), as one system.

Messages on core subjects may be dropped and overtake each other. The result stream keeps a
message until it is acknowledged. Processes may stop at any point, agent and task identifiers
are fresh when they are drawn, and the server does not restart.
-/
namespace ControlPlane.Source.Agent

open Lib
open Verification (ComputeRequest)
open Engine (ComputeResponse)
open Adapters (AdapterError)

/-! ## Messages -/

/-- `TaskPayload` with the fields that `execute_task` does not read. -/
structure AddressedPayload extends TaskPayload where
  agentId : String
  agent : AgentDescriptor
  deriving DecidableEq, Repr

/-- `offload_if_large`; the store answers with the hash in hexadecimal digits. -/
def offloadIfLarge (content : String) (threshold : Nat) (put : Except String String) :
    Except String ContextPayload :=
  if content.utf8ByteSize ≤ threshold then .ok (.inline content)
  else put.map fun hash => .ref hash content.utf8ByteSize

def CostTier.debugName : CostTier → String
  | .low => "Low"
  | .mid => "Mid"
  | .high => "High"

/-- The `Display` form. -/
def ProvisionError.display : ProvisionError → String
  | .capacityLimitReached agentType => "capacity limit reached for " ++ agentType
  | .noAgentsAvailable maxTier tools =>
      "no agents available (max_tier=" ++ maxTier.debugName ++ ", required_tools=[" ++
        ", ".intercalate (tools.map AgentTool.debugName) ++ "])"

/-! ## Parties -/

inductive AgentPhase where
  /-- Heartbeats are sent already, the subscriptions are not there yet. -/
  | starting
  | idle
  | executing (payload : AddressedPayload)
  | publishing (result : TaskResult)
  | stopped
  deriving DecidableEq, Repr

/-- A process of an agent; `inbox` is the buffer of its subscription. -/
structure AgentProcess where
  descriptor : AgentDescriptor
  phase : AgentPhase
  inbox : List AddressedPayload
  activeTasks : Nat
  terminating : Bool
  deriving DecidableEq, Repr

/-- `NatsDispatchAdapter`, without what it shares with the others. -/
structure NatsDispatchAdapter where
  descriptor : AgentDescriptor
  requirements : TaskRequirements
  timeout : Nat
  offloadThresholdBytes : Nat
  deriving DecidableEq, Repr

inductive CallPhase where
  | selecting
  | offloading
  | sending
  | awaiting
  | returned (answer : Except AdapterError ComputeResponse)
  | abandoned

/-- A call of `execute` with its local variables. -/
structure Call where
  adapter : NatsDispatchAdapter
  request : ComputeRequest
  agentId : Option String
  payload : Option AddressedPayload
  phase : CallPhase

/-- The task behind `await_task_result_once`. -/
inductive Waiter where
  | absent
  | spawned (timeout : Nat)
  | listening (deadline : Nat)
  | done (result : Except String TaskResult)

structure World where
  now : Nat
  agents : String → Option AgentProcess
  registry : AgentRegistry
  /-- On their way to the registry. -/
  heartbeats : List AgentHeartbeat
  calls : Nat → Option Call
  waiters : String → Waiter
  /-- The result stream, the oldest message first. -/
  results : List TaskResult

/-- `NatsAgentProvider`, without its registry. -/
structure Provider where
  policy : SchedulerPolicy
  ttl : Nat

namespace World

/-- Before any process has started. -/
def init : World where
  now := 0
  agents := fun _ => none
  registry := []
  heartbeats := []
  calls := fun _ => none
  waiters := fun _ => .absent
  results := []

def setAgent (w : World) (agentId : String) (process : AgentProcess) : World :=
  { w with agents := Function.update w.agents agentId (some process) }

def setCall (w : World) (k : Nat) (call : Call) : World :=
  { w with calls := Function.update w.calls k (some call) }

def setWaiter (w : World) (taskId : String) (waiter : Waiter) : World :=
  { w with waiters := Function.update w.waiters taskId waiter }

/-- A step of one agent process. -/
def withAgent (w : World) (agentId : String) (f : AgentProcess → Option AgentProcess) :
    Option World :=
  match w.agents agentId with
  | none => none
  | some process => (f process).map (w.setAgent agentId)

/-- A step of one call. -/
def withCall (w : World) (k : Nat) (f : Call → Option Call) : Option World :=
  match w.calls k with
  | none => none
  | some call => (f call).map (w.setCall k)

end World

/-! ## Agent steps -/

namespace AgentProcess

def spawned (descriptor : AgentDescriptor) : AgentProcess where
  descriptor := descriptor
  phase := .starting
  inbox := []
  activeTasks := 0
  terminating := false

def subscribe (process : AgentProcess) : Option AgentProcess :=
  match process.phase with
  | .starting => some { process with phase := .idle }
  | _ => none

/-- The subscription gets messages from the time it is there. -/
def deliver (process : AgentProcess) (payload : AddressedPayload) : AgentProcess :=
  match process.phase with
  | .starting => process
  | .stopped => process
  | _ => { process with inbox := process.inbox ++ [payload] }

/-- The next message of the subscription; those for other agents are skipped. -/
def take (process : AgentProcess) (agentId : String) : Option AgentProcess :=
  match process.phase, process.inbox with
  | .idle, payload :: rest =>
      if payload.agentId = agentId then
        some
          { process with
            inbox := rest
            activeTasks := process.activeTasks + 1
            phase := .executing payload }
      else some { process with inbox := rest }
  | _, _ => none

/-- `execute_task` has come back. -/
def execute (process : AgentProcess) (loop : DispatchLoop) : Option AgentProcess :=
  match process.phase with
  | .executing payload =>
      some
        { process with
          activeTasks := process.activeTasks - 1
          phase := .publishing (loop.executeTask payload.toTaskPayload) }
  | _ => none

def stop (process : AgentProcess) : Option AgentProcess :=
  match process.phase with
  | .idle => if process.terminating then some { process with phase := .stopped } else none
  | _ => none

def crash (process : AgentProcess) : AgentProcess := { process with phase := .stopped }

end AgentProcess

/-! ## Call steps -/

namespace Call

def new (adapter : NatsDispatchAdapter) (request : ComputeRequest) : Call where
  adapter := adapter
  request := request
  agentId := none
  payload := none
  phase := .selecting

def networkError (call : Call) (message : String) : Call :=
  { call with phase := .returned (.error (.networkError message)) }

def select (call : Call) (answer : Except ProvisionError String) : Option Call :=
  match call.phase with
  | .selecting =>
      match answer with
      | .ok agentId => some { call with agentId := some agentId, phase := .offloading }
      | .error e => some (call.networkError ("agent selection failed: " ++ e.display))
  | _ => none

/-- The payload of a call with its task identifier. -/
def buildPayload (call : Call) (agentId taskId : String) (context : ContextPayload) :
    AddressedPayload where
  taskId := taskId
  agentId := agentId
  agent := call.adapter.descriptor
  instructions := call.request.task
  context := context
  tau := call.request.tau
  maxTokens := call.request.maxTokens
  waveMode := .normal

/-- What the call returns for a result of its waiter. -/
def answer : Except String TaskResult → Except AdapterError ComputeResponse
  | .error e => .error (.networkError ("result await failed: " ++ e))
  | .ok result =>
      match result.error with
      | some err => .error (.networkError ("agent error: " ++ err))
      | none => .ok { output := result.output, tokenCost := result.tokenCost }

def join (call : Call) (result : Except String TaskResult) : Option Call :=
  match call.phase with
  | .awaiting => some { call with phase := .returned (answer result) }
  | _ => none

/-- The caller drops the call; the waiter goes on. -/
def abandon (call : Call) : Option Call :=
  match call.phase with
  | .returned _ => none
  | _ => some { call with phase := .abandoned }

end Call

/-! ## The system -/

inductive Action where
  | tick (elapsed : Nat)
  | start (agentId : String) (descriptor : AgentDescriptor)
  | subscribe (agentId : String)
  | heartbeat (agentId : String)
  | deliverHeartbeat (i : Nat)
  | dropHeartbeat (i : Nat)
  | prune
  | terminate (agentId : String) (received : Bool)
  | stop (agentId : String)
  | crash (agentId : String)
  | call (k : Nat) (adapter : NatsDispatchAdapter) (request : ComputeRequest)
  | select (k : Nat)
  | prepare (k : Nat) (taskId : String) (put : Except String String)
  | listen (taskId : String) (consumer : Except String Unit)
  | publish (k : Nat) (receivers : List String)
  | publishFails (k : Nat) (error : String)
  | take (agentId : String)
  | execute (agentId : String) (loop : DispatchLoop)
  | publishResult (agentId : String) (stored : Bool)
  | receive (taskId : String) (ack : Except String Unit)
  | expire (taskId : String)
  | join (k : Nat)
  | abandon (k : Nat)

namespace World

/-- The first message of the result subject of a task. -/
def firstResult (w : World) (taskId : String) : Option TaskResult :=
  w.results.find? fun r => decide (r.taskId = taskId)

/-- The stream without the first message of a subject. -/
def ackResult (w : World) (taskId : String) : List TaskResult :=
  w.results.eraseP fun r => decide (r.taskId = taskId)

def terminate (w : World) (agentId : String) (received : Bool) : World :=
  { w with
    registry := w.registry.remove agentId
    agents := Function.update w.agents agentId
      ((w.agents agentId).map fun process =>
        { process with terminating := process.terminating || received }) }

/-- A payload on the wildcard subject of all agents; `receivers` are those that it reaches. -/
def broadcast (w : World) (payload : AddressedPayload) (receivers : List String) : World :=
  { w with
    agents := fun agentId =>
      if agentId ∈ receivers then (w.agents agentId).map (·.deliver payload)
      else w.agents agentId }

/-- The text of the timeout of `await_task_result_once`. -/
def timeoutText (taskId : String) : String :=
  "stream error: timeout waiting for task result: task_id=" ++ taskId

def heartbeat (w : World) (agentId : String) : Option World :=
  match w.agents agentId with
  | none => none
  | some process =>
      if process.phase = .stopped then none
      else
        some
          { w with
            heartbeats := w.heartbeats ++ [⟨agentId, process.descriptor, process.activeTasks⟩] }

def publish (w : World) (k : Nat) (receivers : List String) : Option World :=
  match w.calls k with
  | none => none
  | some call =>
      match call.phase, call.payload with
      | .sending, some payload =>
          some ((w.broadcast payload receivers).setCall k { call with phase := .awaiting })
      | _, _ => none

def publishFails (w : World) (k : Nat) (error : String) : Option World :=
  w.withCall k fun call =>
    match call.phase with
    | .sending => some (call.networkError ("publish failed: " ++ error))
    | _ => none

/-- A task identifier is drawn, the context offloaded, and the waiter spawned. -/
def prepare (w : World) (k : Nat) (taskId : String) (put : Except String String) :
    Option World :=
  match w.waiters taskId, w.calls k with
  | .absent, some call =>
      match call.phase, call.agentId with
      | .offloading, some agentId =>
          match offloadIfLarge call.request.systemContext call.adapter.offloadThresholdBytes put with
          | .ok context =>
              let sending :=
                { call with
                  payload := some (call.buildPayload agentId taskId context)
                  phase := .sending }
              some ((w.setCall k sending).setWaiter taskId (.spawned call.adapter.timeout))
          | .error e => some (w.setCall k (call.networkError ("payload offload failed: " ++ e)))
      | _, _ => none
  | _, _ => none

def listen (w : World) (taskId : String) (consumer : Except String Unit) : Option World :=
  match w.waiters taskId with
  | .spawned timeout =>
      match consumer with
      | .ok _ => some (w.setWaiter taskId (.listening (w.now + timeout)))
      | .error e => some (w.setWaiter taskId (.done (.error e)))
  | _ => none

/-- A result is handed out and acknowledged. -/
def receive (w : World) (taskId : String) (ack : Except String Unit) : Option World :=
  match w.waiters taskId, w.firstResult taskId with
  | .listening _, some result =>
      match ack with
      | .ok _ =>
          some { w.setWaiter taskId (.done (.ok result)) with results := w.ackResult taskId }
      | .error e => some (w.setWaiter taskId (.done (.error ("stream error: ack failed: " ++ e))))
  | _, _ => none

def expire (w : World) (taskId : String) : Option World :=
  match w.waiters taskId with
  | .listening deadline =>
      if deadline ≤ w.now then
        some (w.setWaiter taskId (.done (.error (timeoutText taskId))))
      else none
  | _ => none

def join (w : World) (k : Nat) : Option World :=
  match w.calls k with
  | none => none
  | some call =>
      match call.payload with
      | none => none
      | some payload =>
          match w.waiters payload.taskId with
          | .done result => (call.join result).map (w.setCall k)
          | _ => none

def publishResult (w : World) (agentId : String) (stored : Bool) : Option World :=
  match w.agents agentId with
  | none => none
  | some process =>
      match process.phase with
      | .publishing result =>
          let w' := w.setAgent agentId { process with phase := .idle }
          some (if stored then { w' with results := w.results ++ [result] } else w')
      | _ => none

def execute (w : World) (agentId : String) (loop : DispatchLoop) : Option World :=
  if loop.agentId = agentId then w.withAgent agentId (·.execute loop) else none

end World

def step (p : Provider) (w : World) : Action → Option World
  | .tick elapsed => some { w with now := w.now + elapsed }
  | .start agentId descriptor =>
      match w.agents agentId with
      | none => some (w.setAgent agentId (.spawned descriptor))
      | some _ => none
  | .subscribe agentId => w.withAgent agentId AgentProcess.subscribe
  | .heartbeat agentId => w.heartbeat agentId
  | .deliverHeartbeat i =>
      match w.heartbeats[i]? with
      | none => none
      | some hb =>
          some
            { w with
              heartbeats := w.heartbeats.eraseIdx i
              registry := w.registry.insertHeartbeat w.now hb }
  | .dropHeartbeat i => some { w with heartbeats := w.heartbeats.eraseIdx i }
  | .prune => some { w with registry := w.registry.prune p.ttl w.now }
  | .terminate agentId received => some (w.terminate agentId received)
  | .stop agentId => w.withAgent agentId AgentProcess.stop
  | .crash agentId => w.withAgent agentId fun process => some process.crash
  | .call k adapter request =>
      match w.calls k with
      | none => some (w.setCall k (.new adapter request))
      | some _ => none
  | .select k =>
      w.withCall k fun call =>
        call.select (w.registry.selectAgent p.policy p.ttl w.now call.adapter.requirements)
  | .prepare k taskId put => w.prepare k taskId put
  | .listen taskId consumer => w.listen taskId consumer
  | .publish k receivers => w.publish k receivers
  | .publishFails k error => w.publishFails k error
  | .take agentId => w.withAgent agentId (·.take agentId)
  | .execute agentId loop => w.execute agentId loop
  | .publishResult agentId stored => w.publishResult agentId stored
  | .receive taskId ack => w.receive taskId ack
  | .expire taskId => w.expire taskId
  | .join k => w.join k
  | .abandon k => w.withCall k Call.abandon

/-! ## Executions -/

/-- A payload that an agent has worked on, with what came of it. -/
structure TaskExecution where
  agentId : String
  payload : AddressedPayload
  result : TaskResult

/-- The execution that an action completes. -/
def executionOf (w : World) : Action → Option TaskExecution
  | .execute agentId loop =>
      match w.agents agentId with
      | none => none
      | some process =>
          match process.phase with
          | .executing payload =>
              if loop.agentId = agentId then
                some ⟨agentId, payload, loop.executeTask payload.toTaskPayload⟩
              else none
          | _ => none
  | _ => none

/-- The executions of a run, in their order. -/
def executions (p : Provider) : World → List Action → List TaskExecution
  | _, [] => []
  | w, action :: rest =>
      match step p w action with
      | none => []
      | some w' => (executionOf w action).toList ++ executions p w' rest

end ControlPlane.Source.Agent
