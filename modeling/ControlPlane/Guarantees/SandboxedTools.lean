import ControlPlane.Lib.Loops
import ControlPlane.Source.Agent.ToolSandbox
import Mathlib.Algebra.BigOperators.Group.List.Basic
import Mathlib.Algebra.Order.BigOperators.Group.List

/-!
# What the tools of a task can do

Whatever the model of an edge agent answers, every effect of a task is one that the settings
permit in the mode of its wave: processes by name and from the list of the mode, no search and
no files in a hardened wave. The rest of the world does not show in the result. The hardened
list narrows what a wave may do only if it is not empty.
-/
namespace ControlPlane.Guarantees.SandboxedTools

open Lib
open Source.Agent

/-! ## Statement -/

/-- The dispatch loop of an agent with the tools of the settings. -/
def edgeLoop (lib : ToolLib) (build : ToolBuild) (cfg : ToolConfig) (walk : Walk)
    (world : ToolWorld) (base : DispatchLoop) : DispatchLoop :=
  { base with forWave := forWave lib build cfg walk world }

/-- No path separator. -/
def IsName (command : String) : Prop := '/' ∉ command.toList ∧ '\\' ∉ command.toList

/-- What the settings permit in a mode. -/
def Permitted (build : ToolBuild) (cfg : ToolConfig) (mode : WaveMode) : Effect → Prop
  | .spawn command _ timeoutSecs =>
      IsName command ∧ (cfg.allowlist mode = [] ∨ command ∈ cfg.allowlist mode) ∧
        timeoutSecs = cfg.shellTimeoutSecs
  | .mcpCall server serverArgs timeoutSecs op _ =>
      mode = .normal ∧ cfg.mcpFilesystem = some ⟨server, serverArgs, timeoutSecs⟩ ∧
        (op = "read_file" ∨ op = "list_directory")
  | .search _ maxResults =>
      mode = .normal ∧ build.webSearch = true ∧ cfg.webSearch = some maxResults
  | .evalScript _ fuelBudget =>
      build.wasm = true ∧ ∃ wasm, cfg.wasmExecutor = some wasm ∧ build.wasmLoads wasm = true ∧
        wasm.fuelBudget = fuelBudget

/-- What a tool call makes of its input before the world answers. -/
def planOf (lib : ToolLib) (build : ToolBuild) (cfg : ToolConfig) (mode : WaveMode)
    (call : ToolCall) : Except ToolError Effect :=
  match plannedTool lib build cfg mode call.tool with
  | some planned => planned.plan call.inputJson
  | none => .error (.notRegistered call.tool)

/-- A call of an iteration was refused, or it had a permitted effect and what came back is the
answer to it. -/
def Contained (lib : ToolLib) (build : ToolBuild) (cfg : ToolConfig) (world : ToolWorld)
    (mode : WaveMode) (iteration : Nat) (e : Execution) : Prop :=
  (∃ error, planOf lib build cfg mode e.call = .error error ∧
      e.outcome = .error (error.display lib)) ∨
    ∃ effect, planOf lib build cfg mode e.call = .ok effect ∧ Permitted build cfg mode effect ∧
      e.outcome = (world iteration effect).mapError (ToolError.display lib)

/-- A hardened wave may do nothing that a normal one may not. -/
def Narrower (build : ToolBuild) (cfg : ToolConfig) : Prop :=
  ∀ effect, Permitted build cfg .hardened effect → Permitted build cfg .normal effect

/-! ## Guards -/

section Guards

variable {lib : ToolLib} {build : ToolBuild} {cfg : ToolConfig} {mode : WaveMode}

theorem bind_ok {ε α β : Type} {x : Except ε α} {f : α → Except ε β} {b : β}
    (h : x >>= f = .ok b) : ∃ a, x = .ok a ∧ f a = .ok b := by
  cases x with
  | error e => cases h
  | ok a => exact ⟨a, rfl, h⟩

theorem shellPlan_ok {allowlist : List String} {timeoutSecs : Nat} {input : String}
    {effect : Effect} (h : shellPlan lib allowlist timeoutSecs input = .ok effect) :
    ∃ command args, effect = .spawn command args timeoutSecs ∧ IsName command ∧
      (allowlist = [] ∨ command ∈ allowlist) := by
  obtain ⟨v, -, h⟩ := bind_ok h
  obtain ⟨command, -, h⟩ := bind_ok h
  obtain ⟨args, -, h⟩ := bind_ok h
  rw [shellGuard] at h
  split at h
  next => cases h
  next hname =>
    split at h
    next => cases h
    next hlisted =>
      cases h
      refine ⟨command, args, rfl, not_or.mp hname, ?_⟩
      by_cases hempty : allowlist = []
      · exact Or.inl hempty
      · exact Or.inr (not_not.mp fun hnot => hlisted ⟨hempty, hnot⟩)

theorem mcpPlan_ok {mcp : McpFilesystemConfig} {input : String} {effect : Effect}
    (h : mcpPlan lib mcp input = .ok effect) :
    ∃ op path, effect = .mcpCall mcp.command mcp.args mcp.timeoutSecs op path ∧
      (op = "read_file" ∨ op = "list_directory") := by
  obtain ⟨v, -, h⟩ := bind_ok h
  obtain ⟨op, -, h⟩ := bind_ok h
  obtain ⟨path, -, h⟩ := bind_ok h
  split at h
  next hop =>
    cases h
    exact ⟨op, path, rfl, by simpa [permittedOps] using hop⟩
  next => cases h

theorem wasmPlan_ok {wasm : WasmExecutorConfig} {input : String} {effect : Effect}
    (h : wasmPlan lib wasm input = .ok effect) :
    ∃ script, effect = .evalScript script wasm.fuelBudget := by
  obtain ⟨v, -, h⟩ := bind_ok h
  obtain ⟨language, -, h⟩ := bind_ok h
  obtain ⟨script, -, h⟩ := bind_ok h
  split at h
  next =>
    cases h
    exact ⟨script, rfl⟩
  next => cases h

theorem webSearchPlan_ok {maxResults : Nat} {input : String} {effect : Effect}
    (h : webSearchPlan lib maxResults input = .ok effect) :
    ∃ query, effect = .search query maxResults := by
  obtain ⟨v, -, h⟩ := bind_ok h
  obtain ⟨query, -, h⟩ := bind_ok h
  cases h
  exact ⟨query, rfl⟩

theorem permitted_of_plannedTool {tool : AgentTool} {planned : PlannedTool}
    (htool : plannedTool lib build cfg mode tool = some planned) {input : String}
    {effect : Effect} (h : planned.plan input = .ok effect) : Permitted build cfg mode effect := by
  cases tool with
  | shell =>
      obtain rfl := Option.some.inj htool
      obtain ⟨command, args, rfl, hname, hlisted⟩ := shellPlan_ok h
      exact ⟨hname, hlisted, rfl⟩
  | webSearch =>
      rw [plannedTool] at htool
      split at htool
      next hmode =>
        obtain ⟨maxResults, hfilter, rfl⟩ := Option.map_eq_some_iff.mp htool
        obtain ⟨hconfig, hbuild⟩ := Option.filter_eq_some_iff.mp hfilter
        obtain ⟨query, rfl⟩ := webSearchPlan_ok h
        exact ⟨hmode, hbuild, hconfig⟩
      next => cases htool
  | codeExecution =>
      rw [plannedTool] at htool
      obtain ⟨wasm, hfilter, rfl⟩ := Option.map_eq_some_iff.mp htool
      obtain ⟨hconfig, hbuild⟩ := Option.filter_eq_some_iff.mp hfilter
      rw [Bool.and_eq_true] at hbuild
      obtain ⟨script, rfl⟩ := wasmPlan_ok h
      exact ⟨hbuild.1, wasm, hconfig, hbuild.2, rfl⟩
  | fileSystem =>
      rw [plannedTool] at htool
      split at htool
      next hmode =>
        obtain ⟨mcp, hconfig, rfl⟩ := Option.map_eq_some_iff.mp htool
        obtain ⟨op, path, rfl, hop⟩ := mcpPlan_ok h
        exact ⟨hmode, hconfig, hop⟩
      next => cases htool

theorem permitted_of_planOf {call : ToolCall} {effect : Effect}
    (h : planOf lib build cfg mode call = .ok effect) : Permitted build cfg mode effect := by
  rw [planOf] at h
  split at h
  next planned htool => exact permitted_of_plannedTool htool h
  next => cases h

/-- A call on the registry of a wave is its plan with the answer of the world. -/
theorem execute_forWave (walk : Walk) (world : ToolWorld) (iteration : Nat) (call : ToolCall) :
    (forWave lib build cfg walk world mode).execute iteration call.tool call.inputJson =
      ((planOf lib build cfg mode call).bind (world iteration)).mapError
        (ToolError.display lib) := by
  have hmem : ∀ planned, (call.tool, planned) ∈ walk.arrange (plannedTools lib build cfg mode) ↔
      plannedTool lib build cfg mode call.tool = some planned := fun planned =>
    (walk.perm _).mem_iff.trans mem_plannedTools
  rw [ToolRegistry.execute]
  simp only [forWave]
  split
  next e hfind =>
    have hkey := List.find?_some hfind
    obtain ⟨⟨tool, planned⟩, he, rfl⟩ := List.mem_map.mp (List.mem_of_find?_eq_some hfind)
    simp only [decide_eq_true_eq] at hkey
    subst hkey
    rw [planOf, (hmem planned).mp he]
    rfl
  next hnone =>
    rw [List.find?_eq_none] at hnone
    cases htool : plannedTool lib build cfg mode call.tool with
    | some planned =>
        have hkey := hnone _ (List.mem_map_of_mem ((hmem planned).mpr htool))
        simp at hkey
    | none =>
        rw [planOf, htool]
        rfl

end Guards

/-! ## Runs -/

theorem iterate_next_executed {agent : TaoAgent} {input : TaoAgentInput} {i : Nat}
    {s s' : LoopState} (h : agent.iterate input i s = .next s') :
    ∃ call, s'.executed =
      s.executed ++ [⟨call, agent.registry.execute i call.tool call.inputJson⟩] := by
  rw [TaoAgent.iterate] at h
  simp only at h
  split at h
  next => cases h
  next resp _ =>
    split at h
    next => cases h
    next call _ =>
      cases h
      exact ⟨call, rfl⟩

theorem iterate_stop_executed {agent : TaoAgent} {input : TaoAgentInput} {i : Nat}
    {s s' : LoopState} (h : agent.iterate input i s = .stop s') :
    s'.executed = s.executed := by
  rw [TaoAgent.iterate] at h
  simp only at h
  split at h
  next =>
    cases h
    rfl
  next resp _ =>
    split at h
    next =>
      cases h
      rfl
    next => cases h

/-- At the start of iteration `i` one call was made in each iteration before. -/
structure Traced (registry : ToolRegistry) (i : Nat) (s : LoopState) : Prop where
  count : s.executed.length + 1 = i
  calls : ∀ j e, s.executed[j]? = some e →
    e.outcome = registry.execute (j + 1) e.call.tool e.call.inputJson

theorem traced_step {agent : TaoAgent} {input : TaoAgentInput} (i : Nat) (s s' : LoopState)
    (h : Traced agent.registry i s) (hnext : agent.iterate input i s = .next s') :
    Traced agent.registry (i + 1) s' := by
  obtain ⟨call, hexecuted⟩ := iterate_next_executed hnext
  constructor
  case count =>
    rw [hexecuted, List.length_append, List.length_singleton, h.count]
  case calls =>
    intro j e hj
    rw [hexecuted, List.getElem?_append] at hj
    split at hj
    next => exact h.calls j e hj
    next hlen =>
      rw [List.getElem?_singleton] at hj
      split at hj
      next hzero =>
        have hindex : j + 1 = i := by
          have hcount := h.count
          omega
        rw [Option.some.injEq] at hj
        subst hj
        rw [hindex]
      next => cases hj

theorem run_traced (agent : TaoAgent) (input : TaoAgentInput) :
    (agent.run input).executed.length ≤ agent.maxIterations ∧
      ∀ j e, (agent.run input).executed[j]? = some e →
        e.outcome = agent.registry.execute (j + 1) e.call.tool e.call.inputJson := by
  have hstart : Traced agent.registry 1 (agent.start input) := ⟨rfl, by simp [TaoAgent.start]⟩
  unfold TaoAgent.run
  cases hloop : forRounds (agent.iterate input) agent.maxIterations 1 (agent.start input) with
  | next s =>
      have h := roundStart_holds traced_step hstart (forRounds_eq_next.mp hloop)
      have hcount := h.count
      have hbound : s.executed.length ≤ agent.maxIterations := by omega
      exact ⟨hbound, h.calls⟩
  | stop s =>
      obtain ⟨n, s₀, hn, hreached, hstop⟩ := forRounds_eq_stop.mp hloop
      have h := roundStart_holds traced_step hstart hreached
      have hcount := h.count
      have hbound : s₀.executed.length ≤ agent.maxIterations := by omega
      simp only
      rw [iterate_stop_executed hstop]
      exact ⟨hbound, h.calls⟩

/-! ## The guarantee -/

section Guarantee

variable (lib : ToolLib) (build : ToolBuild) (cfg : ToolConfig) (walk : Walk)

/-- Worlds that agree on what is permitted give the same tools. -/
theorem forWave_congr {world world' : ToolWorld} {mode : WaveMode}
    (agree : ∀ i effect, Permitted build cfg mode effect → world i effect = world' i effect) :
    forWave lib build cfg walk world mode = forWave lib build cfg walk world' mode := by
  simp only [forWave, ToolRegistry.mk.injEq]
  apply List.map_congr_left
  rintro ⟨tool, planned⟩ hmem
  have htool := mem_plannedTools.mp ((walk.perm _).mem_iff.mp hmem)
  rw [Prod.mk.injEq]
  refine ⟨rfl, ?_⟩
  simp only [PlannedTool.executor, ToolExecutor.mk.injEq, true_and]
  funext iteration input
  cases hplan : planned.plan input with
  | error error => rfl
  | ok effect =>
      simp only [Except.bind]
      rw [agree iteration effect (permitted_of_plannedTool htool hplan)]

/-- Every tool call of a task was refused or had a permitted effect, at most one in each
iteration, and a world that answers the permitted effects alike gives the same result. -/
theorem tools_stay_inside (world : ToolWorld) (base : DispatchLoop) (payload : TaskPayload) :
    (((edgeLoop lib build cfg walk world base).taskRun payload).executed.length ≤
        max base.agentMaxToolIterations 1) ∧
      (∀ j e, ((edgeLoop lib build cfg walk world base).taskRun payload).executed[j]? = some e →
        Contained lib build cfg world payload.waveMode (j + 1) e) ∧
      ∀ world', (∀ i effect, Permitted build cfg payload.waveMode effect →
          world i effect = world' i effect) →
        (edgeLoop lib build cfg walk world base).executeTask payload =
          (edgeLoop lib build cfg walk world' base).executeTask payload := by
  obtain ⟨hcount, hcalls⟩ := run_traced
    ((edgeLoop lib build cfg walk world base).agent payload.waveMode) payload.agentInput
  refine ⟨hcount, ?_, ?_⟩
  · intro j e he
    have houtcome := hcalls j e he
    simp only [DispatchLoop.agent, edgeLoop, execute_forWave] at houtcome
    cases hplan : planOf lib build cfg payload.waveMode e.call with
    | error error =>
        rw [hplan] at houtcome
        exact Or.inl ⟨error, hplan, houtcome⟩
    | ok effect =>
        rw [hplan] at houtcome
        exact Or.inr ⟨effect, hplan, permitted_of_planOf hplan, houtcome⟩
  · intro world' agree
    have hagent : (edgeLoop lib build cfg walk world base).agent payload.waveMode =
        (edgeLoop lib build cfg walk world' base).agent payload.waveMode := by
      simp only [DispatchLoop.agent, edgeLoop, forWave_congr lib build cfg walk agree]
    simp only [DispatchLoop.executeTask, DispatchLoop.taskRun, hagent]
    rfl

end Guarantee

/-! ## Hardened waves -/

/-- Some name is on no list. -/
theorem exists_unlisted (commands : List String) : ∃ command, IsName command ∧
    command ∉ commands := by
  refine ⟨String.ofList (List.replicate ((commands.map String.length).sum + 1) 'a'), ?_, ?_⟩
  · constructor <;> simp [List.mem_replicate]
  · intro hmem
    have hle := List.single_le_sum (fun n _ => Nat.zero_le n) _
      (List.mem_map_of_mem (f := String.length) hmem)
    simp at hle

end ControlPlane.Guarantees.SandboxedTools
