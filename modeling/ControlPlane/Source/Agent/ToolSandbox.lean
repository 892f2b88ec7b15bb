import ControlPlane.Source.Agent.TaoAgent

/-!
# The tools of a wave

Embeds `ToolRegistry::for_wave` and `all_schemas` (`crates/h2ai-tools/src/registry.rs`), the
guards of the executors (`shell.rs`, `mcp.rs`, `wasm.rs`, `web_search.rs`), `ToolError` and the
settings they read (`crates/h2ai-config/src/lib.rs`). What a tool does outside of the agent is
an effect; the world answers it.
-/
namespace ControlPlane.Source.Agent

/-! ## Errors and effects -/

inductive ToolError where
  | notRegistered (tool : AgentTool)
  | shellFailed (exitCode : Int) (stderr : String)
  | timeout
  | io (message : String)
  | notPermitted (what : String)
  | malformedInput (message : String)
  | networkError (message : String)
  | initializationFailed (message : String)
  | executionFailed (message : String)
  deriving DecidableEq, Repr

/-- An object of `serde_json`: its text fields and its array fields, with the elements of an
array that are texts. -/
structure InputObject where
  str : String → Option String
  array : String → Option (List (Option String))

/-- Library functions: parsing an input, and a text as `Debug` prints it. -/
structure ToolLib where
  parse : String → Except String InputObject
  debug : String → String

def ToolError.display (lib : ToolLib) : ToolError → String
  | .notRegistered tool => "tool " ++ tool.debugName ++ " not registered"
  | .shellFailed exitCode stderr =>
      "shell command failed (exit " ++ toString exitCode ++ "): " ++ stderr
  | .timeout => "tool execution timed out"
  | .io message => "io error: " ++ message
  | .notPermitted what => "command not permitted by allowlist: " ++ lib.debug what
  | .malformedInput message => "malformed tool input: " ++ message
  | .networkError message => "network error: " ++ message
  | .initializationFailed message => "executor initialization failed: " ++ message
  | .executionFailed message => "execution failed: " ++ message

/-- What a tool does outside of the agent. -/
inductive Effect where
  | spawn (command : String) (args : List String) (timeoutSecs : Nat)
  | mcpCall (server : String) (serverArgs : List String) (timeoutSecs : Nat) (op path : String)
  | search (query : String) (maxResults : Nat)
  | evalScript (script : String) (fuelBudget : Nat)
  deriving DecidableEq, Repr

/-! ## Settings -/

structure WasmExecutorConfig where
  interpreterWasmPath : String
  fuelBudget : Nat
  deriving DecidableEq, Repr

structure McpFilesystemConfig where
  command : String
  args : List String
  timeoutSecs : Nat
  deriving DecidableEq, Repr

/-- The settings of the tools; of `WebSearchConfig` the number of results. -/
structure ToolConfig where
  shellAllowlist : List String
  shellHardenedAllowlist : List String
  shellTimeoutSecs : Nat
  wasmExecutor : Option WasmExecutorConfig
  webSearch : Option Nat
  mcpFilesystem : Option McpFilesystemConfig
  deriving DecidableEq, Repr

/-- The features of the build, and whether the interpreter loads. -/
structure ToolBuild where
  wasm : Bool
  webSearch : Bool
  wasmLoads : WasmExecutorConfig → Bool

def ToolConfig.allowlist (cfg : ToolConfig) : WaveMode → List String
  | .normal => cfg.shellAllowlist
  | .hardened => cfg.shellHardenedAllowlist

/-! ## Guards -/

section Guards

variable (lib : ToolLib)

/-- The arguments, or the place of the first that is not a text. -/
def stringArgs : Nat → List (Option String) → Except Nat (List String)
  | _, [] => .ok []
  | i, none :: _ => .error i
  | i, some a :: rest => (stringArgs (i + 1) rest).map (a :: ·)

/-- A text field of the input. -/
def requiredField (v : InputObject) (name : String) : Except ToolError String :=
  match v.str name with
  | some value => .ok value
  | none => .error (.malformedInput ("missing '" ++ name ++ "' field"))

def parseInput (input : String) : Except ToolError InputObject :=
  (lib.parse input).mapError .malformedInput

/-- `execute_structured` up to the process. -/
def shellGuard (allowlist : List String) (timeoutSecs : Nat) (command : String)
    (args : List String) : Except ToolError Effect :=
  if '/' ∈ command.toList ∨ '\\' ∈ command.toList then .error (.notPermitted command)
  else if allowlist ≠ [] ∧ command ∉ allowlist then .error (.notPermitted command)
  else .ok (.spawn command args timeoutSecs)

/-- `ShellExecutor::execute` up to the process. -/
def shellPlan (allowlist : List String) (timeoutSecs : Nat) (input : String) :
    Except ToolError Effect := do
  let v ← parseInput lib input
  let command ← requiredField v "command"
  let args ← (stringArgs 0 ((v.array "args").getD [])).mapError fun i =>
    .malformedInput ("args[" ++ toString i ++ "] is not a string")
  shellGuard allowlist timeoutSecs command args

def permittedOps : List String := ["read_file", "list_directory"]

def mcpPlan (cfg : McpFilesystemConfig) (input : String) : Except ToolError Effect := do
  let v ← parseInput lib input
  let op ← requiredField v "op"
  let path ← requiredField v "path"
  if op ∈ permittedOps then .ok (.mcpCall cfg.command cfg.args cfg.timeoutSecs op path)
  else .error (.notPermitted ("op not allowed: " ++ op))

def wasmPlan (cfg : WasmExecutorConfig) (input : String) : Except ToolError Effect := do
  let v ← parseInput lib input
  let language ← requiredField v "language"
  let script ← requiredField v "script"
  if language = "javascript" then .ok (.evalScript script cfg.fuelBudget)
  else .error (.notPermitted ("unsupported language: " ++ language))

def webSearchPlan (maxResults : Nat) (input : String) : Except ToolError Effect := do
  let v ← parseInput lib input
  let query ← requiredField v "query"
  .ok (.search query maxResults)

end Guards

/-! ## Registration -/

/-- An executor before the world answers. -/
structure PlannedTool where
  schema : ToolSchema
  plan : String → Except ToolError Effect

/-- A text property of an input schema. -/
def textProperty (name description : String) : String :=
  "\"" ++ name ++ "\":\x7b\"description\":\"" ++ description ++ "\",\"type\":\"string\"\x7d"

/-- A text property with its values. -/
def enumProperty (name description : String) (values : List String) : String :=
  "\"" ++ name ++ "\":\x7b\"description\":\"" ++ description ++ "\",\"enum\":[" ++
    ",".intercalate (values.map fun v => "\"" ++ v ++ "\"") ++ "],\"type\":\"string\"\x7d"

/-- An input schema as it is printed, with the keys in order. -/
def objectSchema (properties required : List String) : String :=
  "\x7b\"properties\":\x7b" ++ ",".intercalate properties ++ "\x7d,\"required\":[" ++
    ",".intercalate (required.map fun r => "\"" ++ r ++ "\"") ++ "],\"type\":\"object\"\x7d"

def shellTool (lib : ToolLib) (allowlist : List String) (timeoutSecs : Nat) : PlannedTool where
  schema :=
    { name := "shell"
      description := "Execute a binary directly (no shell interpreter). " ++
        "Returns stdout on success, stderr on failure."
      parameters := objectSchema
        ["\"args\":\x7b\"description\":\"Arguments passed as literals to the binary. " ++
            "No shell expansion occurs.\",\"items\":\x7b\"type\":\"string\"\x7d," ++
            "\"type\":\"array\"\x7d",
          textProperty "command" "Binary name only — no path separators, no shell syntax"]
        ["command"] }
  plan := shellPlan lib allowlist timeoutSecs

def webSearchTool (lib : ToolLib) (maxResults : Nat) : PlannedTool where
  schema :=
    { name := "web_search"
      description := "Search the web and return the top snippets for a query."
      parameters := objectSchema [textProperty "query" "The search query string."] ["query"] }
  plan := webSearchPlan lib maxResults

def mcpTool (lib : ToolLib) (cfg : McpFilesystemConfig) : PlannedTool where
  schema :=
    { name := "file_system"
      description := "Read files or list directories in the workspace (read-only)."
      parameters := objectSchema
        [enumProperty "op" ("Operation: read_file returns file contents; " ++
            "list_directory returns entry names.") permittedOps,
          textProperty "path" "Relative path to the file or directory."]
        ["op", "path"] }
  plan := mcpPlan lib cfg

def wasmTool (lib : ToolLib) (cfg : WasmExecutorConfig) : PlannedTool where
  schema :=
    { name := "code_execution"
      description := "Execute a JavaScript script inside a sandboxed WASM interpreter. " ++
        "Returns the evaluation result. No network or filesystem access."
      parameters := objectSchema
        [enumProperty "language" "Script language. Only 'javascript' is supported."
            ["javascript"],
          textProperty "script" "JavaScript expression or program to evaluate."]
        ["language", "script"] }
  plan := wasmPlan lib cfg

/-- What `for_wave` registers for a tool. -/
def plannedTool (lib : ToolLib) (build : ToolBuild) (cfg : ToolConfig) (mode : WaveMode) :
    AgentTool → Option PlannedTool
  | .shell => some (shellTool lib (cfg.allowlist mode) cfg.shellTimeoutSecs)
  | .codeExecution =>
      (cfg.wasmExecutor.filter fun wasm => build.wasm && build.wasmLoads wasm).map (wasmTool lib)
  | .webSearch =>
      if mode = .normal then
        (cfg.webSearch.filter fun _ => build.webSearch).map (webSearchTool lib)
      else none
  | .fileSystem => if mode = .normal then cfg.mcpFilesystem.map (mcpTool lib) else none

/-- The tools in the order of their registration. -/
def plannedTools (lib : ToolLib) (build : ToolBuild) (cfg : ToolConfig) (mode : WaveMode) :
    List (AgentTool × PlannedTool) :=
  [AgentTool.shell, .codeExecution, .webSearch, .fileSystem].filterMap fun tool =>
    (plannedTool lib build cfg mode tool).map fun planned => (tool, planned)

/-- The commands that `validate_shell_allowlist_subset` warns of. -/
def validateShellAllowlistSubset (cfg : ToolConfig) : List String :=
  if cfg.shellAllowlist = [] then []
  else cfg.shellHardenedAllowlist.filter fun cmd => decide (cmd ∉ cfg.shellAllowlist)

/-- What the world answers to an effect of an iteration. -/
abbrev ToolWorld := Nat → Effect → Except ToolError String

def PlannedTool.executor (lib : ToolLib) (world : ToolWorld) (tool : PlannedTool) :
    ToolExecutor where
  schema := tool.schema
  execute iteration input :=
    ((tool.plan input).bind (world iteration)).mapError (ToolError.display lib)

/-- The order in which the hash map of the executors is walked. -/
structure Walk where
  arrange : List (AgentTool × PlannedTool) → List (AgentTool × PlannedTool)
  perm : ∀ tools, (arrange tools).Perm tools

theorem keys_filterMap_sublist (f : AgentTool → Option PlannedTool) (tools : List AgentTool) :
    ((tools.filterMap fun tool => (f tool).map fun planned => (tool, planned)).map
      Prod.fst).Sublist tools := by
  induction tools with
  | nil => exact .slnil
  | cons tool rest ih =>
      rw [List.filterMap_cons]
      cases f tool with
      | none => exact ih.cons tool
      | some planned => exact ih.cons_cons tool

theorem keys_plannedTools (lib : ToolLib) (build : ToolBuild) (cfg : ToolConfig)
    (mode : WaveMode) : ((plannedTools lib build cfg mode).map Prod.fst).Nodup :=
  (keys_filterMap_sublist _ _).nodup (by decide)

theorem mem_plannedTools {lib : ToolLib} {build : ToolBuild} {cfg : ToolConfig}
    {mode : WaveMode} {tool : AgentTool} {planned : PlannedTool} :
    (tool, planned) ∈ plannedTools lib build cfg mode ↔
      plannedTool lib build cfg mode tool = some planned := by
  rw [plannedTools, List.mem_filterMap]
  constructor
  · rintro ⟨tool', -, h⟩
    obtain ⟨planned', hplanned, heq⟩ := Option.map_eq_some_iff.mp h
    obtain ⟨rfl, rfl⟩ := Prod.mk.inj heq
    exact hplanned
  · intro h
    refine ⟨tool, ?_, by rw [h, Option.map_some]⟩
    cases tool <;> decide

/-- `ToolRegistry::for_wave`. -/
def forWave (lib : ToolLib) (build : ToolBuild) (cfg : ToolConfig) (walk : Walk) (world : ToolWorld)
    (mode : WaveMode) : ToolRegistry where
  executors := (walk.arrange (plannedTools lib build cfg mode)).map fun e =>
    (e.1, e.2.executor lib world)
  keys := by
    rw [List.map_map]
    exact ((walk.perm _).map Prod.fst).nodup_iff.mpr (keys_plannedTools lib build cfg mode)

end ControlPlane.Source.Agent
