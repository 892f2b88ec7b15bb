import ControlPlane.Lib.Patterns
import ControlPlane.Source.Agent.TaoAgent
import ControlPlane.Source.Text

/-!
# Redaction of telemetry

Embeds `crates/h2ai-telemetry/src/redaction.rs` and, of `OrchestratorPipeline`
(`crates/h2ai-orchestrator/src/pipeline.rs`), `record_telemetry`, `finalize` and the loop of
`execute_and_await` once the task is published. Texts are lists of characters; the classes of
the secret pattern are those of the `regex` crate, which ignores case by Unicode's simple case
folding.
-/
namespace ControlPlane.Source.Agent

open Lib
open Text (isWhitespace)

/-! ## Secrets -/

/-- `[A-Za-z0-9]` without regard to case: the long s and the Kelvin sign fold to letters. -/
def isAlnum (c : Char) : Bool :=
  (decide ('a' ≤ c) && decide (c ≤ 'z')) || (decide ('A' ≤ c) && decide (c ≤ 'Z')) ||
    (decide ('0' ≤ c) && decide (c ≤ '9')) || c.toNat == 0x17F || c.toNat == 0x212A

/-- `[A-Za-z0-9\-._~+/]` without regard to case. -/
def isTokenChar (c : Char) : Bool :=
  isAlnum c || c == '-' || c == '.' || c == '_' || c == '~' || c == '+' || c == '/'

/-- A letter of the pattern and the characters that fold to it. -/
def letter (folds : List Char) : Pattern Char := .symbol fun c => folds.contains c

/-- `sk-[A-Za-z0-9]{20,}`. -/
def apiKey : Pattern Char :=
  .seq (letter ['s', 'S', Char.ofNat 0x17F]) <| .seq (letter ['k', 'K', Char.ofNat 0x212A]) <|
    .seq (letter ['-']) (.many isAlnum 20)

/-- `[A-Za-z0-9]{32,}`. -/
def longRun : Pattern Char := .many isAlnum 32

/-- `Bearer\s+[A-Za-z0-9\-._~+/]+=*`. -/
def bearerToken : Pattern Char :=
  .seq (letter ['b', 'B']) <| .seq (letter ['e', 'E']) <| .seq (letter ['a', 'A']) <|
    .seq (letter ['r', 'R']) <| .seq (letter ['e', 'E']) <| .seq (letter ['r', 'R']) <|
      .seq (.many isWhitespace 1) <| .seq (.many isTokenChar 1) (.many (· == '=') 0)

/-- The pattern of `secret_regex`. -/
def secretPattern : Pattern Char := .choice apiKey (.choice longRun bearerToken)

def redact (s : List Char) : List Char :=
  secretPattern.replaceAll ('[' :: ("REDACTED".toList ++ [']'])) s

/-! ## Events -/

inductive AgentTelemetryEvent where
  | llmPromptSent (taskId agentId : String) (prompt : List Char) (timestamp : Int)
  | llmResponseReceived (taskId agentId : String) (response : List Char) (tokenCost : Nat)
      (timestamp : Int)
  | shellCommandExecuted (taskId agentId : String) (command : List Char)
      (args : List (List Char)) (stdout stderr : List Char) (exitCode : Int) (timestamp : Int)
  | systemError (taskId agentId : String) (error : List Char) (timestamp : Int)
  deriving DecidableEq, Repr

def redactEvent : AgentTelemetryEvent → AgentTelemetryEvent
  | .llmPromptSent taskId agentId prompt timestamp =>
      .llmPromptSent taskId agentId (redact prompt) timestamp
  | .llmResponseReceived taskId agentId response tokenCost timestamp =>
      .llmResponseReceived taskId agentId (redact response) tokenCost timestamp
  | .shellCommandExecuted taskId agentId command args stdout stderr exitCode timestamp =>
      .shellCommandExecuted taskId agentId (redact command) (args.map redact) (redact stdout)
        (redact stderr) exitCode timestamp
  | .systemError taskId agentId error timestamp =>
      .systemError taskId agentId (redact error) timestamp

/-! ## The loop of `execute_and_await` -/

/-- What the loop takes next; a message that does not decode carries nothing. -/
inductive Signal where
  | result (decoded : Except String TaskResult)
  | resultClosed
  | telemetry (event : Option AgentTelemetryEvent)
  | deadline
  deriving DecidableEq, Repr

/-- The calls on the auditor and on the memory. -/
inductive AuditCall where
  | recordEvent (event : AgentTelemetryEvent)
  | commitNewMemories (sessionId : String) (result : TaskResult)
  | flush
  deriving DecidableEq, Repr

inductive OrchestratorError where
  | memory (message : String)
  | telemetry (message : String)
  | transport (message : String)
  | deserialize (message : String)
  | timeout (taskId : String)
  deriving DecidableEq, Repr

/-- What the memory and the auditor answer at the end; an error in recording is logged only. -/
structure Backends where
  commit : Except String Unit
  flush : Except String Unit

/-- `finalize`. -/
def finalize (backends : Backends) (sessionId : String) (result : TaskResult) :
    List AuditCall × Except OrchestratorError Unit :=
  match backends.commit with
  | .error message => ([.commitNewMemories sessionId result], .error (.memory message))
  | .ok _ =>
      ([.commitNewMemories sessionId result, .flush],
        match backends.flush with
        | .error message => .error (.telemetry message)
        | .ok _ => .ok ())

/-- The calls made, and the answer once there is one. -/
def awaitLoop (backends : Backends) (sessionId taskId : String) :
    List Signal → List AuditCall × Option (Except OrchestratorError TaskResult)
  | [] => ([], none)
  | .telemetry none :: signals => awaitLoop backends sessionId taskId signals
  | .telemetry (some event) :: signals =>
      let rest := awaitLoop backends sessionId taskId signals
      (.recordEvent (redactEvent event) :: rest.1, rest.2)
  | .result (.error message) :: _ => ([], some (.error (.deserialize message)))
  | .result (.ok result) :: _ =>
      let final := finalize backends sessionId result
      (final.1, some (final.2.map fun _ => result))
  | .resultClosed :: _ =>
      ([], some (.error (.transport "result subject closed unexpectedly")))
  | .deadline :: _ => ([], some (.error (.timeout taskId)))

end ControlPlane.Source.Agent
