import ControlPlane.Lib.Loops
import ControlPlane.Source.Engine.TaoLoop
import ControlPlane.Source.Verification.Predicate

/-!
# The tool loop of an edge agent

Embeds `TaoAgent::run` of `crates/h2ai-agent/src/tao_agent.rs` with the tool-call
detection, and `DispatchLoop::execute_task` of `crates/h2ai-agent/src/dispatch.rs`.
The adapter and the tools answer as they like, call by call. Next to the result of a
run stand the answers of the adapter and the tool calls that were executed.
-/
namespace ControlPlane.Source.Agent

open Lib
open Verification (ComputeRequest)
open Engine (ComputeResponse)

/-! ## Tools -/

inductive AgentTool where
  | shell
  | webSearch
  | codeExecution
  | fileSystem
  deriving DecidableEq, Repr

/-- The `Debug` form, in the text of `ToolError::NotRegistered`. -/
def AgentTool.debugName : AgentTool → String
  | .shell => "Shell"
  | .webSearch => "WebSearch"
  | .codeExecution => "CodeExecution"
  | .fileSystem => "FileSystem"

/-- `agent_tool_from_name`. -/
def agentToolFromName (name : String) : Option AgentTool :=
  if name = "shell" then some .shell
  else if name = "web_search" then some .webSearch
  else if name = "code_execution" then some .codeExecution
  else if name = "file_system" then some .fileSystem
  else none

structure ToolSchema where
  name : String
  description : String
  /-- The JSON schema as it is printed. -/
  parameters : String
  deriving DecidableEq, Repr

/-- A tool, answering the call of an iteration with its output or the text of its error. -/
structure ToolExecutor where
  schema : ToolSchema
  execute : Nat → String → Except String String

/-- The executors in the order in which the map is walked. -/
structure ToolRegistry where
  executors : List (AgentTool × ToolExecutor)
  keys : (executors.map Prod.fst).Nodup

def ToolRegistry.execute (registry : ToolRegistry) (iteration : Nat) (tool : AgentTool)
    (input : String) : Except String String :=
  match registry.executors.find? fun e => decide (e.1 = tool) with
  | some e => e.2.execute iteration input
  | none => .error ("tool " ++ tool.debugName ++ " not registered")

/-- `tool_system_block`. -/
def toolSystemBlock (registry : ToolRegistry) : String :=
  let schemas := registry.executors.map fun e => e.2.schema
  if schemas.isEmpty then ""
  else
    schemas.foldl (fun block s => block ++ "- " ++ s.name ++ ": " ++ s.description ++
        "\n  Input schema: " ++ s.parameters ++ "\n")
      ("\n\n[TOOLS]\nTo call a tool output ONLY a JSON object — no prose, no markdown " ++
        "fences:\n\x7b\"tool\": \"<name>\", \"input\": <input_object>\x7d\n\nAvailable tools:\n") ++
      "\nWhen you have a final answer (no tool call needed), output it as plain text."

/-! ## Observations -/

/-- The characters whose bytes fit, up to `floor_char_boundary`. -/
def takeBytes : Nat → List Char → List Char
  | _, [] => []
  | budget, c :: rest =>
      if c.utf8Size ≤ budget then c :: takeBytes (budget - c.utf8Size) rest else []

/-- `truncate_observation`; a limit of zero switches it off. -/
def truncateObservation (observation : String) (maxChars : Nat) : String :=
  if maxChars = 0 ∨ observation.utf8ByteSize ≤ maxChars then observation
  else
    String.ofList (takeBytes maxChars observation.toList) ++ "…[truncated " ++
      toString observation.utf8ByteSize ++ " → " ++ toString maxChars ++ " chars]"

/-! ## Tool-call detection -/

/-- The wire format of a tool call; `input` is the object as it is printed again. -/
structure ToolCallRequest where
  tool : String
  input : String
  deriving DecidableEq, Repr

/-- What `serde_json` decides about a text: whether all of it is a tool call, and how
long the JSON value at its start is. -/
structure ToolJson where
  fromStr : List Char → Option ToolCallRequest
  valueLength : List Char → Option Nat

def stripPrefix (pattern text : List Char) : Option (List Char) :=
  if pattern.isPrefixOf text then some (text.drop pattern.length) else none

def stripSuffix (pattern text : List Char) : Option (List Char) :=
  if pattern.isSuffixOf text then some (text.take (text.length - pattern.length)) else none

/-- `strip_fence`. A fence that is not closed ends the search, also the one with `json`. -/
def stripFence (text : List Char) : Option (List Char) :=
  let t := Text.trim text
  let inner :=
    match stripPrefix "```json".toList t with
    | some rest => stripSuffix "```".toList rest
    | none =>
        match stripPrefix "```".toList t with
        | some rest => stripSuffix "```".toList rest
        | none => none
  inner.map Text.trim

/-- `find_json_object`. -/
def findJsonObject (json : ToolJson) (text : List Char) : Option (List Char) :=
  match text.dropWhile fun c => decide (c ≠ '\x7b') with
  | [] => none
  | tail => (json.valueLength tail).map fun len => tail.take len

/-- A request with the tool it names. -/
structure ToolCall where
  tool : AgentTool
  inputJson : String
  deriving DecidableEq, Repr

/-- A candidate counts if it parses and its tool has a known name. -/
def parseCandidate (json : ToolJson) (candidate : List Char) : Option ToolCall :=
  if candidate.isEmpty then none
  else
    match json.fromStr candidate with
    | none => none
    | some request => (agentToolFromName request.tool).map fun tool => ⟨tool, request.input⟩

/-- `extract_tool_call`. -/
def extractToolCall (json : ToolJson) (text : List Char) : Option ToolCall :=
  let dedupedObject := (findJsonObject json text).filter fun s => decide (s ≠ Text.trim text)
  [text, (stripFence text).getD [], dedupedObject.getD []].findSome? (parseCandidate json)

/-! ## The loop -/

structure ToolCallRecord where
  tool : AgentTool
  inputJson : String
  output : String
  iteration : Nat
  deriving DecidableEq, Repr

structure TaoAgentInput where
  instructions : String
  systemContext : String
  tau : ℚ
  maxTokens : Nat
  deriving DecidableEq, Repr

/-- What a run is given: the adapter answers each call with a response or the text of
its error. -/
structure TaoAgent where
  adapter : Nat → ComputeRequest → Except String ComputeResponse
  registry : ToolRegistry
  json : ToolJson
  /-- `agent_max_tool_iterations` of the configuration. -/
  agentMaxToolIterations : Nat
  maxObservationChars : Nat

/-- Guard of `TaoAgent::new`: zero is treated as one. -/
def TaoAgent.maxIterations (agent : TaoAgent) : Nat := max agent.agentMaxToolIterations 1

/-- A tool call handed to the registry, with what came back. -/
structure Execution where
  call : ToolCall
  outcome : Except String String

def Execution.observation (e : Execution) : String :=
  match e.outcome with
  | .ok out => out
  | .error err => "tool error: " ++ err

/-- The variables of the loop; the last two record what happened outside of it. -/
structure LoopState where
  context : String
  totalTokenCost : Nat
  toolCalls : List ToolCallRecord
  lastOutput : String
  truncated : Bool
  adapterFailed : Bool
  answers : List (Except String ComputeResponse)
  executed : List Execution

def TaoAgent.request (input : TaoAgentInput) (context : String) : ComputeRequest where
  systemContext := context
  task := input.instructions
  tau := input.tau
  maxTokens := input.maxTokens

/-- The text a tool call adds to the context. -/
def toolResultBlock (maxObservationChars iteration : Nat) (observation : String) : String :=
  "\n\n[TOOL RESULT — iteration " ++ toString iteration ++ "]\n" ++
    truncateObservation observation maxObservationChars

/-- A tool call of the loop: the full output is recorded, the context gets the cut one. -/
def TaoAgent.observe (agent : TaoAgent) (iteration : Nat) (s : LoopState) (call : ToolCall) :
    LoopState :=
  let execution : Execution :=
    ⟨call, agent.registry.execute iteration call.tool call.inputJson⟩
  { s with
    toolCalls := s.toolCalls ++
      [⟨call.tool, call.inputJson, execution.observation, iteration⟩]
    context := s.context ++
      toolResultBlock agent.maxObservationChars iteration execution.observation
    lastOutput := execution.observation
    truncated := s.truncated || iteration == agent.maxIterations
    executed := s.executed ++ [execution] }

/-- One iteration. The token sum is a `u64`. -/
def TaoAgent.iterate (agent : TaoAgent) (input : TaoAgentInput) (iteration : Nat)
    (s : LoopState) : Round LoopState LoopState :=
  let answer := agent.adapter iteration (TaoAgent.request input s.context)
  let asked := { s with answers := s.answers ++ [answer] }
  match answer with
  | .error e =>
      .stop { asked with lastOutput := "adapter error: " ++ e, adapterFailed := true }
  | .ok resp =>
      let counted :=
        { asked with totalTokenCost := (s.totalTokenCost + resp.tokenCost) % 2 ^ 64 }
      let output := Text.trim resp.output.toList
      match extractToolCall agent.json output with
      | none => .stop { counted with lastOutput := String.ofList output }
      | some call => .next (agent.observe iteration counted call)

def TaoAgent.start (agent : TaoAgent) (input : TaoAgentInput) : LoopState where
  context := input.systemContext ++ toolSystemBlock agent.registry
  totalTokenCost := 0
  toolCalls := []
  lastOutput := ""
  truncated := false
  adapterFailed := false
  answers := []
  executed := []

/-- `TaoAgent::run`, in the state in which the loop is left. -/
def TaoAgent.run (agent : TaoAgent) (input : TaoAgentInput) : LoopState :=
  match forRounds (agent.iterate input) agent.maxIterations 1 (agent.start input) with
  | .next s => s
  | .stop s => s

/-! ## Dispatch -/

inductive WaveMode where
  | normal
  | hardened
  deriving DecidableEq, Repr

inductive ContextPayload where
  | inline (context : String)
  | ref (hash : String) (byteLen : Nat)
  deriving DecidableEq, Repr

structure TaskPayload where
  taskId : String
  instructions : String
  context : ContextPayload
  tau : ℚ
  maxTokens : Nat
  waveMode : WaveMode
  deriving DecidableEq, Repr

structure TaskResult where
  taskId : String
  agentId : String
  output : String
  tokenCost : Nat
  error : Option String
  toolCalls : List ToolCallRecord
  deriving DecidableEq, Repr

/-- The loop's adapter and configuration; `forWave` is `ToolRegistry::for_wave`. -/
structure DispatchLoop where
  agentId : String
  adapter : Nat → ComputeRequest → Except String ComputeResponse
  forWave : WaveMode → ToolRegistry
  json : ToolJson
  agentMaxToolIterations : Nat
  agentMaxObservationChars : Nat

/-- A context by reference is not resolved: the agent works on the empty text. -/
def ContextPayload.text : ContextPayload → String
  | .inline context => context
  | .ref _ _ => ""

def TaskPayload.agentInput (payload : TaskPayload) : TaoAgentInput where
  instructions := payload.instructions
  systemContext := payload.context.text
  tau := payload.tau
  maxTokens := payload.maxTokens

def DispatchLoop.agent (loop : DispatchLoop) (mode : WaveMode) : TaoAgent where
  adapter := loop.adapter
  registry := loop.forWave mode
  json := loop.json
  agentMaxToolIterations := loop.agentMaxToolIterations
  maxObservationChars := loop.agentMaxObservationChars

/-- The run behind a task. -/
def DispatchLoop.taskRun (loop : DispatchLoop) (payload : TaskPayload) : LoopState :=
  (loop.agent payload.waveMode).run payload.agentInput

/-- `execute_task`. `truncated` is logged and goes no further. -/
def DispatchLoop.executeTask (loop : DispatchLoop) (payload : TaskPayload) : TaskResult :=
  let result := loop.taskRun payload
  { taskId := payload.taskId
    agentId := loop.agentId
    output := result.lastOutput
    tokenCost := result.totalTokenCost
    error := if result.adapterFailed then some result.lastOutput else none
    toolCalls := result.toolCalls }

end ControlPlane.Source.Agent
