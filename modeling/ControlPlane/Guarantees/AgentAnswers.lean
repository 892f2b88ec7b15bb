import ControlPlane.Source.Agent.TaoAgent
import Mathlib.Data.List.Induction

/-!
# A successful agent result is an answer

The tool loop of an agent leaves a raw tool observation in its output when it reaches the
iteration cap, and a task result has no field that says so. A result without an error is an
answer exactly if the adapter, asked with the observations so far, gives a plain text or
fails within the cap.
-/
namespace ControlPlane.Guarantees.AgentAnswers

open Lib Source.Agent
open Source.Engine (ComputeResponse)

/-! ## Statement -/

/-- The text the tool-call detection looks at. -/
def trimmed (resp : ComputeResponse) : List Char := Source.Text.trim resp.output.toList

def answerCost : Except String ComputeResponse → Nat
  | .ok resp => resp.tokenCost
  | .error _ => 0

def totalCost (answers : List (Except String ComputeResponse)) : Nat :=
  (answers.map answerCost).sum

/-- The result of a task against the calls its run made. -/
structure AnswersTask (loop : DispatchLoop) (payload : TaskPayload) : Prop where
  answer : (loop.executeTask payload).error = none →
    ∃ resp, (loop.taskRun payload).answers.getLast? = some (.ok resp) ∧
      (loop.executeTask payload).output = String.ofList (trimmed resp) ∧
      extractToolCall loop.json (trimmed resp) = none
  tokenCost : (loop.executeTask payload).tokenCost =
    totalCost (loop.taskRun payload).answers
  /-- Each executed tool call once, in order, with its full output. -/
  toolCalls : (loop.executeTask payload).toolCalls.map
      (fun c => (ToolCall.mk c.tool c.inputJson, c.output)) =
    (loop.taskRun payload).executed.map fun e => (e.call, e.observation)
  calls : (loop.taskRun payload).answers.length ≤ max 1 loop.agentMaxToolIterations

section Dialogue

variable (agent : TaoAgent) (input : TaoAgentInput)

/-- The context of call `n + 1` and the cost of the calls before it, if all of them were
answered with a tool call. -/
def dialogue : Nat → Option (String × Nat)
  | 0 => some (input.systemContext ++ toolSystemBlock agent.registry, 0)
  | n + 1 =>
      match dialogue n with
      | none => none
      | some (context, cost) =>
          match agent.adapter (n + 1) (TaoAgent.request input context) with
          | .error _ => none
          | .ok resp =>
              (extractToolCall agent.json (trimmed resp)).map fun call =>
                (context ++ toolResultBlock agent.maxObservationChars (n + 1)
                    (Execution.observation
                      ⟨call, agent.registry.execute (n + 1) call.tool call.inputJson⟩),
                  cost + resp.tokenCost)

/-- Call `n + 1` is made and is not answered with a tool call: it fails, or its answer is
final. All calls together cost `cost`. -/
def EndsAt (n cost : Nat) : Prop :=
  ∃ context before, dialogue agent input n = some (context, before) ∧
    match agent.adapter (n + 1) (TaoAgent.request input context) with
    | .error _ => cost = before
    | .ok resp =>
        extractToolCall agent.json (trimmed resp) = none ∧ cost = before + resp.tokenCost

/-- One of the calls that the cap allows ends the dialogue, at a cost that fits a `u64`. -/
def EndsInTime : Prop := ∃ n < agent.maxIterations, ∃ cost < 2 ^ 64, EndsAt agent input n cost

end Dialogue

/-! ## One iteration -/

section Run

variable {agent : TaoAgent} {input : TaoAgentInput}

theorem totalCost_append (answers : List (Except String ComputeResponse))
    (answer : Except String ComputeResponse) :
    totalCost (answers ++ [answer]) = totalCost answers + answerCost answer := by
  simp [totalCost]

/-- What one iteration can do. -/
theorem iterate_cases (agent : TaoAgent) (input : TaoAgentInput) (i : Nat) (s : LoopState) :
    (∃ e, agent.adapter i (TaoAgent.request input s.context) = .error e ∧
      agent.iterate input i s = .stop { s with
        answers := s.answers ++ [.error e]
        lastOutput := "adapter error: " ++ e
        adapterFailed := true }) ∨
    (∃ resp, agent.adapter i (TaoAgent.request input s.context) = .ok resp ∧
      extractToolCall agent.json (trimmed resp) = none ∧
      agent.iterate input i s = .stop { s with
        answers := s.answers ++ [.ok resp]
        totalTokenCost := (s.totalTokenCost + resp.tokenCost) % 2 ^ 64
        lastOutput := String.ofList (trimmed resp) }) ∨
    ∃ resp call, agent.adapter i (TaoAgent.request input s.context) = .ok resp ∧
      extractToolCall agent.json (trimmed resp) = some call ∧
      agent.iterate input i s = .next (agent.observe i { s with
        answers := s.answers ++ [.ok resp]
        totalTokenCost := (s.totalTokenCost + resp.tokenCost) % 2 ^ 64 } call) := by
  cases hanswer : agent.adapter i (TaoAgent.request input s.context) with
  | error e =>
      left
      exact ⟨e, rfl, by simp only [TaoAgent.iterate, hanswer]⟩
  | ok resp =>
      right
      cases hcall : extractToolCall agent.json (trimmed resp) with
      | none =>
          left
          refine ⟨resp, rfl, hcall, ?_⟩
          unfold trimmed at hcall ⊢
          simp only [TaoAgent.iterate, hanswer, hcall]
      | some call =>
          right
          refine ⟨resp, call, rfl, hcall, ?_⟩
          unfold trimmed at hcall
          simp only [TaoAgent.iterate, hanswer, hcall]

/-! ## The states of the loop -/

/-- What holds in every state of the loop, also in the one it stops with. -/
structure Counts (s : LoopState) : Prop where
  tokenCost : s.totalTokenCost = totalCost s.answers % 2 ^ 64
  toolCalls : s.toolCalls.map (fun c => (ToolCall.mk c.tool c.inputJson, c.output)) =
    s.executed.map fun e => (e.call, e.observation)

/-- At the start of iteration `n + 1` all answers so far were tool calls. -/
structure AtRound (agent : TaoAgent) (input : TaoAgentInput) (n : Nat) (s : LoopState) :
    Prop extends Counts s where
  dialogue : dialogue agent input n = some (s.context, totalCost s.answers)
  asked : s.answers.length = n
  notFailed : s.adapterFailed = false
  lastIsCall : ∀ resp, s.answers.getLast? = some (.ok resp) →
    extractToolCall agent.json (trimmed resp) ≠ none

theorem atRound_start : AtRound agent input 0 (agent.start input) where
  tokenCost := rfl
  toolCalls := rfl
  dialogue := rfl
  asked := rfl
  notFailed := rfl
  lastIsCall := by
    intro resp h
    cases h

theorem atRound_next {n : Nat} {s s' : LoopState} (h : AtRound agent input n s)
    (hnext : agent.iterate input (n + 1) s = .next s') : AtRound agent input (n + 1) s' := by
  obtain ⟨e, -, hstop⟩ | ⟨resp, -, -, hstop⟩ | ⟨resp, call, hanswer, hcall, hgo⟩ :=
    iterate_cases agent input (n + 1) s
  · rw [hstop] at hnext
    cases hnext
  · rw [hstop] at hnext
    cases hnext
  · rw [hgo] at hnext
    cases hnext
    refine ⟨⟨?_, ?_⟩, ?_, ?_, h.notFailed, ?_⟩
    · simp only [TaoAgent.observe, totalCost_append, answerCost, h.tokenCost]
      omega
    · simp only [TaoAgent.observe, List.map_append, h.toolCalls, List.map_cons, List.map_nil]
    · simp only [AgentAnswers.dialogue, h.dialogue, hanswer, hcall, Option.map_some,
        TaoAgent.observe, totalCost_append, answerCost]
    · simp only [TaoAgent.observe, List.length_append, List.length_cons, List.length_nil,
        h.asked]
    · intro last hlast
      simp only [TaoAgent.observe, List.getLast?_append, List.getLast?_singleton,
        Option.some_or, Option.some.injEq, Except.ok.injEq] at hlast
      rw [← hlast, hcall]
      exact Option.some_ne_none call

theorem atRound_of_roundStart {n : Nat} {s : LoopState}
    (h : roundStart (agent.iterate input) 1 (agent.start input) n = some s) :
    AtRound agent input n s := by
  have hstep : ∀ i (s s' : LoopState), (1 ≤ i ∧ AtRound agent input (i - 1) s) →
      agent.iterate input i s = .next s' → 1 ≤ i + 1 ∧ AtRound agent input (i + 1 - 1) s' := by
    intro i s s' hi hnext
    obtain ⟨m, rfl⟩ : ∃ m, i = m + 1 := ⟨i - 1, by omega⟩
    exact ⟨by omega, atRound_next hi.2 hnext⟩
  have hround := (roundStart_holds (I := fun i s => 1 ≤ i ∧ AtRound agent input (i - 1) s)
    hstep ⟨Nat.le_refl 1, atRound_start⟩ h).2
  rwa [Nat.add_sub_cancel_left] at hround

/-! ## How a run ends -/

/-- A dialogue that goes past a call has gone past the calls before it. -/
theorem dialogue_of_le {n m : Nat} (h : n ≤ m) (later : dialogue agent input m ≠ none) :
    dialogue agent input n ≠ none := by
  induction h with
  | refl => exact later
  | step _ ih =>
      apply ih
      intro hnone
      exact later (by simp only [dialogue, hnone])

/-- After the call that ends it, a dialogue does not go on. -/
theorem dialogue_succ_of_endsAt {n cost : Nat} (h : EndsAt agent input n cost) :
    dialogue agent input n ≠ none ∧ dialogue agent input (n + 1) = none := by
  obtain ⟨context, before, hdialogue, hanswer⟩ := h
  refine ⟨by simp [hdialogue], ?_⟩
  cases hcall : agent.adapter (n + 1) (TaoAgent.request input context) with
  | error e => simp only [dialogue, hdialogue, hcall]
  | ok resp =>
      rw [hcall] at hanswer
      simp only [dialogue, hdialogue, hcall, hanswer.1, Option.map_none]

theorem endsAt_le {n m c d : Nat} (hn : EndsAt agent input n c) (hm : EndsAt agent input m d) :
    n ≤ m := by
  by_contra hlt
  have hpast := dialogue_of_le (by omega : m + 1 ≤ n) (dialogue_succ_of_endsAt hn).1
  exact hpast (dialogue_succ_of_endsAt hm).2

/-- A dialogue ends once. -/
theorem endsAt_unique {n m c d : Nat} (hn : EndsAt agent input n c)
    (hm : EndsAt agent input m d) : c = d := by
  obtain rfl : n = m := Nat.le_antisymm (endsAt_le hn hm) (endsAt_le hm hn)
  obtain ⟨context, before, hdialogue, hc⟩ := hn
  obtain ⟨context', before', hdialogue', hd⟩ := hm
  rw [hdialogue] at hdialogue'
  cases hdialogue'
  cases hcall : agent.adapter (n + 1) (TaoAgent.request input context) with
  | error e =>
      rw [hcall] at hc hd
      exact hc.trans hd.symm
  | ok resp =>
      rw [hcall] at hc hd
      exact hc.2.trans hd.2.symm

theorem endsInTime_of_endsAt {n cost : Nat} (hn : n < agent.maxIterations)
    (h : EndsAt agent input n cost) : EndsInTime agent input ↔ cost < 2 ^ 64 := by
  constructor
  · intro ⟨m, _, d, hd, hm⟩
    rwa [endsAt_unique h hm]
  · intro hcost
    exact ⟨n, hn, cost, hcost, h⟩

/-- The three ways in which a run ends. -/
inductive RunEnd (agent : TaoAgent) (input : TaoAgentInput) (s : LoopState) : Prop where
  /-- All iterations were tool calls. -/
  | capped (h : AtRound agent input agent.maxIterations s)
  | failed (n : Nat) (s₀ : LoopState) (e : String) (hn : n < agent.maxIterations)
      (h : AtRound agent input n s₀)
      (answer : agent.adapter (n + 1) (TaoAgent.request input s₀.context) = .error e)
      (left : s = { s₀ with
        answers := s₀.answers ++ [.error e]
        lastOutput := "adapter error: " ++ e
        adapterFailed := true })
  | answered (n : Nat) (s₀ : LoopState) (resp : ComputeResponse) (hn : n < agent.maxIterations)
      (h : AtRound agent input n s₀)
      (answer : agent.adapter (n + 1) (TaoAgent.request input s₀.context) = .ok resp)
      (final : extractToolCall agent.json (trimmed resp) = none)
      (left : s = { s₀ with
        answers := s₀.answers ++ [.ok resp]
        totalTokenCost := (s₀.totalTokenCost + resp.tokenCost) % 2 ^ 64
        lastOutput := String.ofList (trimmed resp) })

theorem run_end (agent : TaoAgent) (input : TaoAgentInput) :
    RunEnd agent input (agent.run input) := by
  unfold TaoAgent.run
  cases hloop : forRounds (agent.iterate input) agent.maxIterations 1 (agent.start input) with
  | next s => exact .capped (atRound_of_roundStart (forRounds_eq_next.mp hloop))
  | stop s =>
      obtain ⟨n, s₀, hn, hstart, hstop⟩ := forRounds_eq_stop.mp hloop
      have hround := atRound_of_roundStart hstart
      rw [Nat.add_comm 1 n] at hstop
      obtain ⟨e, hanswer, hleft⟩ | ⟨resp, hanswer, hfinal, hleft⟩ | ⟨resp, call, -, -, hgo⟩ :=
        iterate_cases agent input (n + 1) s₀
      · rw [hleft] at hstop
        cases hstop
        exact .failed n s₀ e hn hround hanswer rfl
      · rw [hleft] at hstop
        cases hstop
        exact .answered n s₀ resp hn hround hanswer hfinal rfl
      · rw [hgo] at hstop
        cases hstop

theorem run_counts (agent : TaoAgent) (input : TaoAgentInput) : Counts (agent.run input) := by
  cases run_end agent input with
  | capped h => exact h.toCounts
  | failed n s₀ e _ h _ left =>
      rw [left]
      refine ⟨?_, h.toolCalls⟩
      simp only [totalCost_append, answerCost, h.tokenCost, Nat.add_zero]
  | answered n s₀ resp _ h _ _ left =>
      rw [left]
      refine ⟨?_, h.toolCalls⟩
      simp only [totalCost_append, answerCost, h.tokenCost]
      omega

theorem run_asked (agent : TaoAgent) (input : TaoAgentInput) :
    (agent.run input).answers.length ≤ agent.maxIterations := by
  cases run_end agent input with
  | capped h => exact Nat.le_of_eq h.asked
  | failed n s₀ e hn h _ left =>
      rw [left, List.length_append, h.asked]
      exact hn
  | answered n s₀ resp hn h _ _ left =>
      rw [left, List.length_append, h.asked]
      exact hn

/-- The answer half of the guarantee, for the state in which a run is left. -/
def AnswerLast (agent : TaoAgent) (s : LoopState) : Prop :=
  ∃ resp, s.answers.getLast? = some (.ok resp) ∧
    s.lastOutput = String.ofList (trimmed resp) ∧
    extractToolCall agent.json (trimmed resp) = none

/-- A run ends in time exactly if what it leaves without an error is an answer and its
costs did not wrap. -/
theorem endsInTime_iff (agent : TaoAgent) (input : TaoAgentInput) :
    EndsInTime agent input ↔
      ((agent.run input).adapterFailed = false → AnswerLast agent (agent.run input)) ∧
        totalCost (agent.run input).answers < 2 ^ 64 := by
  cases run_end agent input with
  | capped h =>
      constructor
      · intro ⟨n, hn, cost, _, hends⟩
        have hpast : dialogue agent input agent.maxIterations ≠ none := by
          rw [h.dialogue]
          exact Option.some_ne_none _
        exact absurd (dialogue_succ_of_endsAt hends).2 (dialogue_of_le hn hpast)
      · intro ⟨hanswer, _⟩
        obtain ⟨resp, hlast, -, hfinal⟩ := hanswer h.notFailed
        exact absurd hfinal (h.lastIsCall resp hlast)
  | failed n s₀ e hn h answer left =>
      have hends : EndsAt agent input n (totalCost (agent.run input).answers) := by
        refine ⟨s₀.context, _, h.dialogue, ?_⟩
        rw [answer, left, totalCost_append, answerCost, Nat.add_zero]
      rw [endsInTime_of_endsAt hn hends]
      have hfailed : (agent.run input).adapterFailed = true := by rw [left]
      simp [hfailed]
  | answered n s₀ resp hn h answer final left =>
      have hends : EndsAt agent input n (totalCost (agent.run input).answers) := by
        refine ⟨s₀.context, _, h.dialogue, ?_⟩
        rw [answer, left, totalCost_append, answerCost]
        exact ⟨final, rfl⟩
      rw [endsInTime_of_endsAt hn hends]
      have hanswer : AnswerLast agent (agent.run input) := by
        refine ⟨resp, ?_, ?_, final⟩
        · rw [left, List.getLast?_append, List.getLast?_singleton, Option.some_or]
        · rw [left]
      simp [hanswer]

end Run

/-! ## The guarantee -/

theorem executeTask_error_eq_none (loop : DispatchLoop) (payload : TaskPayload) :
    (loop.executeTask payload).error = none ↔ (loop.taskRun payload).adapterFailed = false := by
  unfold DispatchLoop.executeTask
  cases hfailed : (loop.taskRun payload).adapterFailed with
  | true => simp [hfailed]
  | false => simp [hfailed]

/-- For every adapter, registry, iteration cap and observation limit, and every task. -/
theorem answersTask_iff (loop : DispatchLoop) (payload : TaskPayload) :
    AnswersTask loop payload ↔
      EndsInTime (loop.agent payload.waveMode) payload.agentInput := by
  have hcounts : Counts (loop.taskRun payload) := run_counts _ _
  rw [endsInTime_iff]
  constructor
  · intro h
    refine ⟨fun hfailed => h.answer ((executeTask_error_eq_none loop payload).mpr hfailed), ?_⟩
    have hcost : (loop.taskRun payload).totalTokenCost = totalCost (loop.taskRun payload).answers :=
      h.tokenCost
    rw [hcounts.tokenCost] at hcost
    have hrange := Nat.mod_lt (totalCost (loop.taskRun payload).answers) (Nat.two_pow_pos 64)
    rw [hcost] at hrange
    exact hrange
  · intro ⟨hanswer, hcost⟩
    refine ⟨fun hnone => hanswer ((executeTask_error_eq_none loop payload).mp hnone), ?_,
      hcounts.toolCalls, ?_⟩
    · exact hcounts.tokenCost.trans (Nat.mod_eq_of_lt hcost)
    · rw [Nat.max_comm]
      exact run_asked _ _

/-! ## An adapter that keeps calling its tool -/

def listFiles : String := "\x7b\"tool\":\"shell\",\"input\":\x7b\"command\":\"ls\"\x7d\x7d"

def listingShell : ToolExecutor where
  schema := ⟨"shell", "Execute a binary directly (no shell interpreter).",
    "\x7b\"type\":\"object\"\x7d"⟩
  execute _ _ := .ok "README.md\n"

/-- The cap of one call is spent on a tool call. -/
def listingLoop : DispatchLoop where
  agentId := "agent-1"
  adapter _ _ := .ok ⟨listFiles, 12⟩
  forWave _ := ⟨[(.shell, listingShell)], by simp⟩
  json :=
    { fromStr := fun text =>
        if text = listFiles.toList then some ⟨"shell", "\x7b\"command\":\"ls\"\x7d"⟩ else none
      valueLength := fun text => if text = listFiles.toList then some text.length else none }
  agentMaxToolIterations := 1
  agentMaxObservationChars := 8192

def listingTask : TaskPayload where
  taskId := "task-1"
  instructions := "Summarise the repository"
  context := .inline "ctx"
  tau := 1 / 2
  maxTokens := 256
  waveMode := .normal

/-- The task succeeds with the listing of the shell as its answer. -/
theorem observation_returned :
    (listingLoop.executeTask listingTask).error = none ∧
      (listingLoop.executeTask listingTask).output = "README.md\n" ∧
      ¬ AnswersTask listingLoop listingTask := by
  have hcall : extractToolCall listingLoop.json (trimmed ⟨listFiles, 12⟩) =
      some ⟨.shell, "\x7b\"command\":\"ls\"\x7d"⟩ := by decide +kernel
  have herror : (listingLoop.executeTask listingTask).error = none := by decide +kernel
  refine ⟨herror, by decide +kernel, fun h => ?_⟩
  obtain ⟨resp, hlast, -, hfinal⟩ := h.answer herror
  have hasked : (listingLoop.taskRun listingTask).answers = [.ok ⟨listFiles, 12⟩] := by rfl
  rw [hasked] at hlast
  cases hlast
  rw [hcall] at hfinal
  cases hfinal

end ControlPlane.Guarantees.AgentAnswers
