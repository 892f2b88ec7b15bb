import ControlPlane.Source.Agent.EdgeDispatch

/-!
# Steps of the dispatch to edge agents

What one step of the system can do: to the agents and the payloads they hold, and to the
calls, their waiters and the result stream.
-/
namespace ControlPlane.Source.Agent

open Verification (ComputeRequest)

theorem withAgent_eq_some {w w' : World} {agentId : String}
    {f : AgentProcess → Option AgentProcess} :
    w.withAgent agentId f = some w' ↔
      ∃ process process', w.agents agentId = some process ∧ f process = some process' ∧
        w.setAgent agentId process' = w' := by
  rw [World.withAgent]
  cases hagent : w.agents agentId with
  | none => simp
  | some process => simp [Option.map_eq_some_iff]

theorem withCall_eq_some {w w' : World} {k : Nat} {f : Call → Option Call} :
    w.withCall k f = some w' ↔
      ∃ call call', w.calls k = some call ∧ f call = some call' ∧ w.setCall k call' = w' := by
  rw [World.withCall]
  cases hcall : w.calls k with
  | none => simp
  | some call => simp [Option.map_eq_some_iff]

/-! ## Agents -/

section Agents

/-- The payloads of a process: the one in work, then those that wait. -/
def AgentProcess.held (process : AgentProcess) : List AddressedPayload :=
  match process.phase with
  | .executing payload => payload :: process.inbox
  | _ => process.inbox

/-- A step of a process that neither completes a payload nor gets one. -/
structure AgentProcess.Quiet (agentId : String) (before after : AgentProcess) : Prop where
  held : after.held.Sublist before.held
  publishing : ∀ result, after.phase = .publishing result → before.phase = .publishing result
  executing : ∀ payload, after.phase = .executing payload →
    before.phase = .executing payload ∨ payload.agentId = agentId

/-- What happens to the agents: nothing new, a payload is completed, or one is sent out. -/
inductive AgentsStep (w w' : World) : Option TaskExecution → Prop where
  | quiet (h : ∀ a process', w'.agents a = some process' →
      (∃ process, w.agents a = some process ∧ AgentProcess.Quiet a process process') ∨
        process' = .spawned process'.descriptor) : AgentsStep w w' none
  | executed {agentId : String} {process : AgentProcess} {payload : AddressedPayload}
      {loop : DispatchLoop} (agent : w.agents agentId = some process)
      (phase : process.phase = .executing payload) (own : loop.agentId = agentId)
      (agents : w'.agents = Function.update w.agents agentId
        (some
          { process with
            activeTasks := process.activeTasks - 1
            phase := .publishing (loop.executeTask payload.toTaskPayload) })) :
      AgentsStep w w' (some ⟨agentId, payload, loop.executeTask payload.toTaskPayload⟩)
  | sent {k : Nat} {call : Call} {payload : AddressedPayload} (mem : w.calls k = some call)
      (phase : call.phase = .sending) (own : call.payload = some payload)
      (after : ∃ call', w'.calls k = some call' ∧ call'.payload = some payload ∧
        call'.phase ≠ .sending)
      (h : ∀ a process', w'.agents a = some process' → ∃ process, w.agents a = some process ∧
        (process' = process ∨ process' = process.deliver payload)) : AgentsStep w w' none

variable {w w' : World} {action : Action} {p : Provider}

theorem AgentProcess.Quiet.refl (agentId : String) (process : AgentProcess) :
    AgentProcess.Quiet agentId process process :=
  ⟨List.Sublist.refl _, fun _ h => h, fun _ h => Or.inl h⟩

theorem agentsStep_of_eq (h : w'.agents = w.agents) : AgentsStep w w' none := by
  apply AgentsStep.quiet
  intro a process' hagent
  rw [h] at hagent
  exact Or.inl ⟨process', hagent, AgentProcess.Quiet.refl a process'⟩

theorem agentsStep_of_update {agentId : String} {process process' : AgentProcess}
    (hagent : w.agents agentId = some process)
    (hagents : w'.agents = Function.update w.agents agentId (some process'))
    (quiet : AgentProcess.Quiet agentId process process') : AgentsStep w w' none := by
  apply AgentsStep.quiet
  intro a after hafter
  rw [hagents] at hafter
  by_cases ha : a = agentId
  · subst ha
    rw [Function.update_self, Option.some.injEq] at hafter
    subst hafter
    exact Or.inl ⟨process, hagent, quiet⟩
  · rw [Function.update_of_ne ha] at hafter
    exact Or.inl ⟨after, hafter, AgentProcess.Quiet.refl a after⟩

theorem agentsStep_of_withAgent {agentId : String} {f : AgentProcess → Option AgentProcess}
    (h : w.withAgent agentId f = some w')
    (quiet : ∀ process process', f process = some process' →
      AgentProcess.Quiet agentId process process') : AgentsStep w w' none := by
  obtain ⟨process, process', hagent, hf, rfl⟩ := withAgent_eq_some.mp h
  exact agentsStep_of_update hagent rfl (quiet process process' hf)

/-- A process that only leaves a phase without a payload, or drops everything. -/
theorem AgentProcess.quiet_of_phase {agentId : String} {process process' : AgentProcess}
    (inbox : process'.inbox = process.inbox)
    (phase : process'.phase = .idle ∨ process'.phase = .stopped) :
    AgentProcess.Quiet agentId process process' := by
  have hheld : process'.held = process.inbox := by
    rcases phase with h | h
    · simp only [AgentProcess.held, h, inbox]
    · simp only [AgentProcess.held, h, inbox]
  constructor
  case held =>
    rw [hheld, AgentProcess.held]
    split
    · exact List.sublist_cons_self _ _
    · exact List.Sublist.refl _
  case publishing =>
    intro result h
    rcases phase with h' | h' <;> rw [h'] at h <;> cases h
  case executing =>
    intro payload h
    rcases phase with h' | h' <;> rw [h'] at h <;> cases h

theorem AgentProcess.quiet_subscribe {agentId : String} {process process' : AgentProcess}
    (h : process.subscribe = some process') : AgentProcess.Quiet agentId process process' := by
  rw [AgentProcess.subscribe] at h
  split at h
  · obtain rfl := Option.some.inj h
    exact AgentProcess.quiet_of_phase rfl (Or.inl rfl)
  · cases h

theorem AgentProcess.quiet_stop {agentId : String} {process process' : AgentProcess}
    (h : process.stop = some process') : AgentProcess.Quiet agentId process process' := by
  rw [AgentProcess.stop] at h
  split at h
  · split at h
    · obtain rfl := Option.some.inj h
      exact AgentProcess.quiet_of_phase rfl (Or.inr rfl)
    · cases h
  · cases h

theorem AgentProcess.quiet_take {agentId : String} {process process' : AgentProcess}
    (h : process.take agentId = some process') : AgentProcess.Quiet agentId process process' := by
  rw [AgentProcess.take] at h
  split at h
  next payload rest hphase hinbox =>
      split at h
      next hown =>
          obtain rfl := Option.some.inj h
          constructor
          case held =>
            simp only [AgentProcess.held, hphase, hinbox]
            exact List.Sublist.refl _
          case publishing =>
            intro result h
            cases h
          case executing =>
            intro other h
            obtain rfl : payload = other := by simpa using h
            exact Or.inr hown
      next =>
          obtain rfl := Option.some.inj h
          constructor
          case held =>
            simp only [AgentProcess.held, hphase, hinbox]
            exact List.sublist_cons_self _ _
          case publishing =>
            intro result h
            exact h
          case executing =>
            intro other h
            exact Or.inl h
  · cases h

theorem step_agents (h : step p w action = some w') : AgentsStep w w' (executionOf w action) := by
  cases action with
  | tick elapsed =>
      obtain rfl := Option.some.inj h
      exact agentsStep_of_eq rfl
  | start agentId descriptor =>
      simp only [step] at h
      split at h
      next hnone =>
          obtain rfl := Option.some.inj h
          apply AgentsStep.quiet
          intro a process' hagent
          by_cases ha : a = agentId
          · subst ha
            simp only [World.setAgent, Function.update_self, Option.some.injEq] at hagent
            subst hagent
            exact Or.inr rfl
          · simp only [World.setAgent, Function.update_of_ne ha] at hagent
            exact Or.inl ⟨process', hagent, AgentProcess.Quiet.refl a process'⟩
      next => cases h
  | subscribe agentId => exact agentsStep_of_withAgent h fun _ _ => AgentProcess.quiet_subscribe
  | heartbeat agentId =>
      simp only [step, World.heartbeat] at h
      split at h
      · cases h
      · split at h
        · cases h
        · obtain rfl := Option.some.inj h
          exact agentsStep_of_eq rfl
  | deliverHeartbeat i =>
      simp only [step] at h
      split at h
      · cases h
      · obtain rfl := Option.some.inj h
        exact agentsStep_of_eq rfl
  | dropHeartbeat i =>
      obtain rfl := Option.some.inj h
      exact agentsStep_of_eq rfl
  | prune =>
      obtain rfl := Option.some.inj h
      exact agentsStep_of_eq rfl
  | terminate agentId received =>
      obtain rfl := Option.some.inj h
      apply AgentsStep.quiet
      intro a process' hagent
      by_cases ha : a = agentId
      · subst ha
        simp only [World.terminate, Function.update_self, Option.map_eq_some_iff] at hagent
        obtain ⟨process, hprocess, rfl⟩ := hagent
        exact Or.inl ⟨process, hprocess, List.Sublist.refl _, fun _ h => h, fun _ h => Or.inl h⟩
      · simp only [World.terminate, Function.update_of_ne ha] at hagent
        exact Or.inl ⟨process', hagent, AgentProcess.Quiet.refl a process'⟩
  | stop agentId => exact agentsStep_of_withAgent h fun _ _ => AgentProcess.quiet_stop
  | crash agentId =>
      apply agentsStep_of_withAgent h
      intro process process' hcrash
      obtain rfl := Option.some.inj hcrash
      exact AgentProcess.quiet_of_phase rfl (Or.inr rfl)
  | call k adapter request =>
      simp only [step] at h
      split at h
      · obtain rfl := Option.some.inj h
        exact agentsStep_of_eq rfl
      · cases h
  | select k =>
      obtain ⟨_, _, _, _, rfl⟩ := withCall_eq_some.mp h
      exact agentsStep_of_eq rfl
  | prepare k taskId put =>
      simp only [step, World.prepare] at h
      split at h
      · split at h
        · split at h
          · obtain rfl := Option.some.inj h
            exact agentsStep_of_eq rfl
          · obtain rfl := Option.some.inj h
            exact agentsStep_of_eq rfl
        · cases h
      · cases h
  | listen taskId consumer =>
      simp only [step, World.listen] at h
      split at h
      · split at h
        · obtain rfl := Option.some.inj h
          exact agentsStep_of_eq rfl
        · obtain rfl := Option.some.inj h
          exact agentsStep_of_eq rfl
      · cases h
  | publish k receivers =>
      simp only [step, World.publish] at h
      split at h
      · cases h
      next call hcall =>
          split at h
          next payload hphase hpayload =>
              obtain rfl := Option.some.inj h
              refine AgentsStep.sent hcall hphase hpayload
                ⟨_, Function.update_self _ _ _, hpayload, nofun⟩ ?_
              intro a process' hagent
              simp only [World.setCall, World.broadcast] at hagent
              split at hagent
              · obtain ⟨process, hprocess, rfl⟩ := Option.map_eq_some_iff.mp hagent
                exact ⟨process, hprocess, Or.inr rfl⟩
              · exact ⟨process', hagent, Or.inl rfl⟩
          · cases h
  | publishFails k error =>
      obtain ⟨_, _, _, _, rfl⟩ := withCall_eq_some.mp h
      exact agentsStep_of_eq rfl
  | take agentId => exact agentsStep_of_withAgent h fun _ _ => AgentProcess.quiet_take
  | execute agentId loop =>
      simp only [step, World.execute] at h
      split at h
      next hown =>
          obtain ⟨process, process', hagent, hexecute, rfl⟩ := withAgent_eq_some.mp h
          rw [AgentProcess.execute] at hexecute
          split at hexecute
          next payload hphase =>
              obtain rfl := Option.some.inj hexecute
              have hexecution : executionOf w (.execute agentId loop) =
                  some ⟨agentId, payload, loop.executeTask payload.toTaskPayload⟩ := by
                simp only [executionOf, hagent, hphase, if_pos hown]
              rw [hexecution]
              exact AgentsStep.executed hagent hphase hown rfl
          · cases hexecute
      · cases h
  | publishResult agentId stored =>
      simp only [step, World.publishResult] at h
      split at h
      · cases h
      next process hprocess =>
          split at h
          · obtain rfl := Option.some.inj h
            cases stored
            · exact agentsStep_of_update hprocess rfl
                (AgentProcess.quiet_of_phase rfl (Or.inl rfl))
            · exact agentsStep_of_update hprocess rfl
                (AgentProcess.quiet_of_phase rfl (Or.inl rfl))
          · cases h
  | receive taskId ack =>
      simp only [step, World.receive] at h
      split at h
      · split at h
        · obtain rfl := Option.some.inj h
          exact agentsStep_of_eq rfl
        · obtain rfl := Option.some.inj h
          exact agentsStep_of_eq rfl
      · cases h
  | expire taskId =>
      simp only [step, World.expire] at h
      split at h
      · split at h
        · obtain rfl := Option.some.inj h
          exact agentsStep_of_eq rfl
        · cases h
      · cases h
  | join k =>
      simp only [step, World.join] at h
      split at h
      · cases h
      · split at h
        · cases h
        · split at h
          · obtain ⟨_, _, rfl⟩ := Option.map_eq_some_iff.mp h
            exact agentsStep_of_eq rfl
          · cases h
  | abandon k =>
      obtain ⟨_, _, _, _, rfl⟩ := withCall_eq_some.mp h
      exact agentsStep_of_eq rfl

end Agents

/-! ## Calls, waiters and results -/

section Control

/-- A step of a call that keeps its payload and gives no answer. -/
structure Call.Kept (before after : Call) : Prop where
  adapter : after.adapter = before.adapter
  request : after.request = before.request
  payload : after.payload = before.payload
  agentId : before.phase ≠ .selecting → after.agentId = before.agentId
  sending : after.phase = .sending → before.phase = .sending
  early : after.phase = .selecting ∨ after.phase = .offloading →
    before.phase = .selecting ∨ before.phase = .offloading
  silent : ∀ response, after.phase ≠ .returned (.ok response)

/-- What happens to the calls, the waiters and the result stream. -/
inductive ControlStep (w w' : World) : Prop where
  | same (calls : w'.calls = w.calls) (waiters : w'.waiters = w.waiters)
      (results : w'.results = w.results)
  | waited {taskId : String} {waiter : Waiter} (present : w.waiters taskId ≠ .absent)
      (still : waiter ≠ .absent) (silent : ∀ r, waiter ≠ .done (.ok r))
      (calls : w'.calls = w.calls) (waiters : w'.waiters = Function.update w.waiters taskId waiter)
      (results : w'.results = w.results)
  | opened {k : Nat} {adapter : NatsDispatchAdapter} {request : ComputeRequest}
      (free : w.calls k = none)
      (calls : w'.calls = Function.update w.calls k (some (.new adapter request)))
      (waiters : w'.waiters = w.waiters) (results : w'.results = w.results)
  | kept {k : Nat} {call call' : Call} (mem : w.calls k = some call) (kept : call.Kept call')
      (calls : w'.calls = Function.update w.calls k (some call'))
      (waiters : w'.waiters = w.waiters) (results : w'.results = w.results)
  | prepared {k : Nat} {call : Call} {agentId taskId : String} {context : ContextPayload}
      {put : Except String String} (mem : w.calls k = some call)
      (phase : call.phase = .offloading) (agent : call.agentId = some agentId)
      (offload : offloadIfLarge call.request.systemContext call.adapter.offloadThresholdBytes put =
        .ok context)
      (fresh : w.waiters taskId = .absent)
      (calls : w'.calls = Function.update w.calls k
        (some
          { call with
            payload := some (call.buildPayload agentId taskId context)
            phase := .sending }))
      (waiters : w'.waiters = Function.update w.waiters taskId (.spawned call.adapter.timeout))
      (results : w'.results = w.results)
  | published {agentId : String} {process : AgentProcess} {r : TaskResult}
      (agent : w.agents agentId = some process) (phase : process.phase = .publishing r)
      (calls : w'.calls = w.calls) (waiters : w'.waiters = w.waiters)
      (results : w'.results = w.results ++ [r])
  | received {taskId : String} {r : TaskResult} (present : w.waiters taskId ≠ .absent)
      (first : w.firstResult taskId = some r) (calls : w'.calls = w.calls)
      (waiters : w'.waiters = Function.update w.waiters taskId (.done (.ok r)))
      (results : w'.results = w.ackResult taskId)
  | joined {k : Nat} {call : Call} {payload : AddressedPayload} {result : Except String TaskResult}
      (mem : w.calls k = some call) (phase : call.phase = .awaiting)
      (own : call.payload = some payload) (done : w.waiters payload.taskId = .done result)
      (calls : w'.calls = Function.update w.calls k
        (some { call with phase := .returned (Call.answer result) }))
      (waiters : w'.waiters = w.waiters) (results : w'.results = w.results)

variable {w w' : World} {action : Action} {p : Provider}

theorem controlStep_of_withAgent {agentId : String} {f : AgentProcess → Option AgentProcess}
    (h : w.withAgent agentId f = some w') : ControlStep w w' := by
  obtain ⟨_, _, _, _, rfl⟩ := withAgent_eq_some.mp h
  exact .same rfl rfl rfl

theorem controlStep_of_withCall {k : Nat} {f : Call → Option Call}
    (h : w.withCall k f = some w') (kept : ∀ call call', f call = some call' → call.Kept call') :
    ControlStep w w' := by
  obtain ⟨call, call', hcall, hf, rfl⟩ := withCall_eq_some.mp h
  exact .kept hcall (kept call call' hf) rfl rfl rfl

/-- A call that goes on to wait or ends without an answer. -/
theorem Call.kept_of_phase (call : Call) {phase : CallPhase}
    (late : phase ≠ .sending ∧ phase ≠ .selecting ∧ phase ≠ .offloading)
    (silent : ∀ response, phase ≠ .returned (.ok response)) :
    call.Kept { call with phase := phase } := by
  constructor
  case adapter => rfl
  case request => rfl
  case payload => rfl
  case agentId => exact fun _ => rfl
  case sending => exact fun h => absurd h late.1
  case early =>
    rintro (h | h)
    · exact absurd h late.2.1
    · exact absurd h late.2.2
  case silent => exact silent

theorem Call.kept_networkError (call : Call) (message : String) :
    call.Kept (call.networkError message) :=
  call.kept_of_phase ⟨nofun, nofun, nofun⟩ nofun

theorem Call.kept_select {call call' : Call} {answer : Except ProvisionError String}
    (h : call.select answer = some call') : call.Kept call' := by
  simp only [Call.select] at h
  split at h
  next hphase =>
      split at h
      · obtain rfl := Option.some.inj h
        constructor
        case adapter => rfl
        case request => rfl
        case payload => rfl
        case agentId => exact fun hnot => absurd hphase hnot
        case sending => exact nofun
        case early => exact fun _ => Or.inl hphase
        case silent => exact nofun
      · obtain rfl := Option.some.inj h
        exact Call.kept_networkError _ _
  · cases h

theorem Call.kept_abandon {call call' : Call} (h : call.abandon = some call') :
    call.Kept call' := by
  simp only [Call.abandon] at h
  split at h
  · cases h
  · obtain rfl := Option.some.inj h
    exact call.kept_of_phase ⟨nofun, nofun, nofun⟩ nofun

theorem step_control (h : step p w action = some w') : ControlStep w w' := by
  cases action with
  | tick elapsed =>
      obtain rfl := Option.some.inj h
      exact .same rfl rfl rfl
  | start agentId descriptor =>
      simp only [step] at h
      split at h
      · obtain rfl := Option.some.inj h
        exact .same rfl rfl rfl
      · cases h
  | subscribe agentId => exact controlStep_of_withAgent h
  | heartbeat agentId =>
      simp only [step, World.heartbeat] at h
      split at h
      · cases h
      · split at h
        · cases h
        · obtain rfl := Option.some.inj h
          exact .same rfl rfl rfl
  | deliverHeartbeat i =>
      simp only [step] at h
      split at h
      · cases h
      · obtain rfl := Option.some.inj h
        exact .same rfl rfl rfl
  | dropHeartbeat i =>
      obtain rfl := Option.some.inj h
      exact .same rfl rfl rfl
  | prune =>
      obtain rfl := Option.some.inj h
      exact .same rfl rfl rfl
  | terminate agentId received =>
      obtain rfl := Option.some.inj h
      exact .same rfl rfl rfl
  | stop agentId => exact controlStep_of_withAgent h
  | crash agentId => exact controlStep_of_withAgent h
  | call k adapter request =>
      simp only [step] at h
      split at h
      next hfree =>
          obtain rfl := Option.some.inj h
          exact .opened hfree rfl rfl rfl
      · cases h
  | select k => exact controlStep_of_withCall h fun _ _ => Call.kept_select
  | prepare k taskId put =>
      simp only [step, World.prepare] at h
      split at h
      next call hfresh hcall =>
          split at h
          next agentId hphase hagent =>
              split at h
              next context hoffload =>
                  obtain rfl := Option.some.inj h
                  exact .prepared hcall hphase hagent hoffload hfresh rfl rfl rfl
              · obtain rfl := Option.some.inj h
                exact .kept hcall (Call.kept_networkError _ _) rfl rfl rfl
          · cases h
      · cases h
  | listen taskId consumer =>
      simp only [step, World.listen] at h
      split at h
      next timeout hwaiter =>
          have hpresent : w.waiters taskId ≠ .absent := by
            rw [hwaiter]
            exact nofun
          split at h
          · obtain rfl := Option.some.inj h
            refine .waited hpresent ?_ ?_ rfl rfl rfl
            · exact nofun
            · exact nofun
          · obtain rfl := Option.some.inj h
            refine .waited hpresent ?_ ?_ rfl rfl rfl
            · exact nofun
            · exact nofun
      · cases h
  | publish k receivers =>
      simp only [step, World.publish] at h
      split at h
      · cases h
      next call hcall =>
          split at h
          · obtain rfl := Option.some.inj h
            refine .kept hcall (call.kept_of_phase ?_ ?_) rfl rfl rfl
            · exact ⟨nofun, nofun, nofun⟩
            · exact nofun
          · cases h
  | publishFails k error =>
      apply controlStep_of_withCall h
      intro call call' hfails
      split at hfails
      · obtain rfl := Option.some.inj hfails
        exact Call.kept_networkError _ _
      · cases hfails
  | take agentId => exact controlStep_of_withAgent h
  | execute agentId loop =>
      simp only [step, World.execute] at h
      split at h
      · exact controlStep_of_withAgent h
      · cases h
  | publishResult agentId stored =>
      simp only [step, World.publishResult] at h
      split at h
      · cases h
      next process hprocess =>
          split at h
          next r hphase =>
              obtain rfl := Option.some.inj h
              cases stored
              · exact .same rfl rfl rfl
              · exact .published hprocess hphase rfl rfl rfl
          · cases h
  | receive taskId ack =>
      simp only [step, World.receive] at h
      split at h
      next deadline r hwaiter hfirst =>
          have hpresent : w.waiters taskId ≠ .absent := by
            rw [hwaiter]
            exact nofun
          split at h
          · obtain rfl := Option.some.inj h
            exact .received hpresent hfirst rfl rfl rfl
          · obtain rfl := Option.some.inj h
            refine .waited hpresent ?_ ?_ rfl rfl rfl
            · exact nofun
            · exact nofun
      · cases h
  | expire taskId =>
      simp only [step, World.expire] at h
      split at h
      next deadline hwaiter =>
          have hpresent : w.waiters taskId ≠ .absent := by
            rw [hwaiter]
            exact nofun
          split at h
          · obtain rfl := Option.some.inj h
            refine .waited hpresent ?_ ?_ rfl rfl rfl
            · exact nofun
            · exact nofun
          · cases h
      · cases h
  | join k =>
      simp only [step, World.join] at h
      split at h
      · cases h
      next call hcall =>
          split at h
          · cases h
          next payload hpayload =>
              split at h
              next result hdone =>
                  obtain ⟨call', hjoin, rfl⟩ := Option.map_eq_some_iff.mp h
                  simp only [Call.join] at hjoin
                  split at hjoin
                  next hphase =>
                      obtain rfl := Option.some.inj hjoin
                      exact .joined hcall hphase hpayload hdone rfl rfl rfl
                  · cases hjoin
              · cases h
  | abandon k => exact controlStep_of_withCall h fun _ _ => Call.kept_abandon

end Control

end ControlPlane.Source.Agent
