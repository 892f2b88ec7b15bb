import ControlPlane.Source.Agent.EdgeSteps

/-!
# Answers of edge agents

A call that goes to an edge agent draws a task identifier, sends its payload to every agent and
takes the first result under the identifier. Messages may be lost and overtake each other, any
number of calls and agents run next to each other, and agents and callers may stop at any point.
In every run no payload is executed twice, and an answer is what the selected agent made of the
request of exactly this call.
-/
namespace ControlPlane.Guarantees.EdgeAnswers

open Lib Source.Agent
open Source.Engine (ComputeResponse)

/-! ## Statement -/

/-- The context an agent works with: beyond the threshold it is lost. -/
def workingContext (call : Call) : String :=
  if call.request.systemContext.utf8ByteSize ≤ call.adapter.offloadThresholdBytes then
    call.request.systemContext
  else ""

/-- The payload asks for what the call asks for. -/
structure Carries (call : Call) (payload : AddressedPayload) : Prop where
  agentId : call.agentId = some payload.agentId
  agent : payload.agent = call.adapter.descriptor
  instructions : payload.instructions = call.request.task
  context : payload.context.text = workingContext call
  tau : payload.tau = call.request.tau
  maxTokens : payload.maxTokens = call.request.maxTokens
  waveMode : payload.waveMode = .normal

/-- An agent ran its loop on a payload that is addressed to it. -/
structure IsExecution (e : TaskExecution) : Prop where
  own : e.payload.agentId = e.agentId
  run : ∃ loop : DispatchLoop, loop.agentId = e.agentId ∧
    e.result = loop.executeTask e.payload.toTaskPayload

/-- The answer of a call is the outcome of an execution of its own payload. -/
structure AnsweredBy (call : Call) (response : ComputeResponse) (e : TaskExecution) : Prop where
  payload : call.payload = some e.payload
  carries : Carries call e.payload
  error : e.result.error = none
  response : response = { output := e.result.output, tokenCost := e.result.tokenCost }

/-- What holds of a run that ends in `w` with the given executions. -/
structure EdgeGuarantee (w : World) (done : List TaskExecution) : Prop where
  /-- No payload is executed twice. -/
  once : (done.map fun e => e.payload.taskId).Nodup
  executions : ∀ e ∈ done, IsExecution e
  /-- Every answer is that of an execution for this call. -/
  answered : ∀ k call response, w.calls k = some call →
    call.phase = .returned (.ok response) → ∃ e ∈ done, AnsweredBy call response e
  /-- No two calls share a task. -/
  separate : ∀ k k' call call' payload payload', w.calls k = some call → w.calls k' = some call' →
    call.payload = some payload → call'.payload = some payload' →
    payload.taskId = payload'.taskId → k = k'

/-! ## Calls -/

/-- The identifiers of the payloads of the calls are drawn once, and their waiters are there. -/
structure CallsKnown (w : World) : Prop where
  distinct : ∀ k k' call call' payload payload', w.calls k = some call → w.calls k' = some call' →
    call.payload = some payload → call'.payload = some payload' →
    payload.taskId = payload'.taskId → k = k'
  present : ∀ k call payload, w.calls k = some call → call.payload = some payload →
    w.waiters payload.taskId ≠ .absent
  carries : ∀ k call payload, w.calls k = some call → call.payload = some payload →
    Carries call payload
  early : ∀ k call, w.calls k = some call →
    call.phase = .selecting ∨ call.phase = .offloading → call.payload = none

section Calls

variable {w w' : World}

theorem callsKnown_init : CallsKnown .init where
  distinct := fun _ _ _ _ _ _ h => nomatch h
  present := fun _ _ _ h => nomatch h
  carries := fun _ _ _ h => nomatch h
  early := fun _ _ h => nomatch h

theorem Carries.congr {call call' : Call} {payload : AddressedPayload} (h : Carries call payload)
    (adapter : call'.adapter = call.adapter) (request : call'.request = call.request)
    (agentId : call'.agentId = call.agentId) : Carries call' payload := by
  constructor
  case agentId => rw [agentId, h.agentId]
  case agent => rw [adapter, h.agent]
  case instructions => rw [request, h.instructions]
  case context => rw [workingContext, adapter, request, h.context, workingContext]
  case tau => rw [request, h.tau]
  case maxTokens => rw [request, h.maxTokens]
  case waveMode => exact h.waveMode

/-- An offloaded context reaches the agent as the empty text. -/
theorem carries_buildPayload {call : Call} {agentId taskId : String}
    {context : Source.Agent.ContextPayload} {put : Except String String}
    (agent : call.agentId = some agentId)
    (offload : offloadIfLarge call.request.systemContext call.adapter.offloadThresholdBytes put =
      .ok context) : Carries call (call.buildPayload agentId taskId context) := by
  constructor
  case agentId => exact agent
  case agent => rfl
  case instructions => rfl
  case context =>
    rw [workingContext]
    rw [offloadIfLarge] at offload
    split at offload
    next hsmall =>
        obtain rfl := Except.ok.inj offload
        rw [if_pos hsmall]
        rfl
    next hlarge =>
        rw [if_neg hlarge]
        cases put with
        | error e => cases offload
        | ok hash =>
            obtain rfl := Except.ok.inj offload
            rfl
  case tau => rfl
  case maxTokens => rfl
  case waveMode => rfl

/-- Every call of the new state is one of the old state with the same payload. -/
def CallsFrom (w w' : World) : Prop :=
  ∀ k call', w'.calls k = some call' → call'.payload ≠ none → ∃ call, w.calls k = some call ∧
    call.payload = call'.payload ∧ call.adapter = call'.adapter ∧
    call.request = call'.request ∧ call.agentId = call'.agentId

theorem CallsKnown.of_from (h : CallsKnown w) (hfrom : CallsFrom w w')
    (present : ∀ t, w.waiters t ≠ .absent → w'.waiters t ≠ .absent)
    (early : ∀ k call, w'.calls k = some call →
      call.phase = .selecting ∨ call.phase = .offloading → call.payload = none) :
    CallsKnown w' := by
  have hback : ∀ k call' payload, w'.calls k = some call' → call'.payload = some payload →
      ∃ call, w.calls k = some call ∧ call.payload = some payload ∧
        call'.adapter = call.adapter ∧ call'.request = call.request ∧
        call'.agentId = call.agentId := by
    intro k call' payload hcall hpayload
    obtain ⟨call, hold, hsame, hadapter, hrequest, hagent⟩ :=
      hfrom k call' hcall (by rw [hpayload]; exact Option.some_ne_none _)
    exact ⟨call, hold, hsame.trans hpayload, hadapter.symm, hrequest.symm, hagent.symm⟩
  constructor
  case distinct =>
    intro k k' call call' payload payload' hcall hcall' hpayload hpayload' htask
    obtain ⟨old, hold, howned, -⟩ := hback k call payload hcall hpayload
    obtain ⟨old', hold', howned', -⟩ := hback k' call' payload' hcall' hpayload'
    exact h.distinct k k' old old' payload payload' hold hold' howned howned' htask
  case present =>
    intro k call payload hcall hpayload
    obtain ⟨old, hold, howned, -⟩ := hback k call payload hcall hpayload
    exact present _ (h.present k old payload hold howned)
  case carries =>
    intro k call payload hcall hpayload
    obtain ⟨old, hold, howned, hadapter, hrequest, hagent⟩ := hback k call payload hcall hpayload
    exact (h.carries k old payload hold howned).congr hadapter hrequest hagent
  case early => exact early

/-- A step that changes no call. -/
theorem CallsKnown.of_same (h : CallsKnown w) (calls : w'.calls = w.calls)
    (present : ∀ t, w.waiters t ≠ .absent → w'.waiters t ≠ .absent) : CallsKnown w' := by
  refine h.of_from ?_ present ?_
  · intro k call hcall _
    rw [calls] at hcall
    exact ⟨call, hcall, rfl, rfl, rfl, rfl⟩
  · intro k call hcall
    rw [calls] at hcall
    exact h.early k call hcall

/-- A step of one call that keeps what it has. -/
theorem CallsKnown.of_update (h : CallsKnown w) {k : ℕ} {call call' : Call}
    (mem : w.calls k = some call) (calls : w'.calls = Function.update w.calls k (some call'))
    (waiters : w'.waiters = w.waiters) (adapter : call'.adapter = call.adapter)
    (request : call'.request = call.request) (payload : call'.payload = call.payload)
    (agentId : call'.payload ≠ none → call'.agentId = call.agentId)
    (early : call'.phase = .selecting ∨ call'.phase = .offloading →
      call.phase = .selecting ∨ call.phase = .offloading) : CallsKnown w' := by
  refine h.of_from ?_ (fun t ht => waiters ▸ ht) ?_
  · intro j other hother hsome
    rw [calls] at hother
    by_cases hj : j = k
    · subst hj
      rw [Function.update_self, Option.some.injEq] at hother
      subst hother
      exact ⟨call, mem, payload.symm, adapter.symm, request.symm, (agentId hsome).symm⟩
    · rw [Function.update_of_ne hj] at hother
      exact ⟨other, hother, rfl, rfl, rfl, rfl⟩
  · intro j other hother hphase
    rw [calls] at hother
    by_cases hj : j = k
    · subst hj
      rw [Function.update_self, Option.some.injEq] at hother
      subst hother
      rw [payload]
      exact h.early j call mem (early hphase)
    · rw [Function.update_of_ne hj] at hother
      exact h.early j other hother hphase

theorem update_ne_absent {w w' : World} {taskId : String} {waiter : Waiter}
    (hwaiters : w'.waiters = Function.update w.waiters taskId waiter) (h : waiter ≠ .absent)
    (t : String) (ht : w.waiters t ≠ .absent) : w'.waiters t ≠ .absent := by
  rw [hwaiters]
  by_cases heq : t = taskId
  · subst heq
    rwa [Function.update_self]
  · rwa [Function.update_of_ne heq]

/-- The identifier that a call draws belongs to no other call. -/
theorem CallsKnown.prepared (h : CallsKnown w) {k : ℕ} {call : Call} {agentId taskId : String}
    {context : Source.Agent.ContextPayload} {put : Except String String}
    (mem : w.calls k = some call) (agent : call.agentId = some agentId)
    (offload : offloadIfLarge call.request.systemContext call.adapter.offloadThresholdBytes put =
      .ok context) (fresh : w.waiters taskId = .absent)
    (calls : w'.calls = Function.update w.calls k
      (some
        { call with
          payload := some (call.buildPayload agentId taskId context)
          phase := .sending }))
    (waiters : w'.waiters = Function.update w.waiters taskId (.spawned call.adapter.timeout)) :
    CallsKnown w' := by
  have hself : w'.calls k = some
      { call with
        payload := some (call.buildPayload agentId taskId context)
        phase := .sending } := by rw [calls, Function.update_self]
  have hother : ∀ j, j ≠ k → w'.calls j = w.calls j := by
    intro j hj
    rw [calls, Function.update_of_ne hj]
  have htask : ∀ j other payload, j ≠ k → w'.calls j = some other → other.payload = some payload →
      payload.taskId ≠ taskId := by
    intro j other payload hj hmem hpayload heq
    rw [hother j hj] at hmem
    exact h.present j other payload hmem hpayload (heq ▸ fresh)
  constructor
  case distinct =>
    intro j j' first second payload payload' hj hj' hpayload hpayload' heq
    by_cases hk : j = k
    · by_cases hk' : j' = k
      · rw [hk, hk']
      · subst hk
        rw [hself, Option.some.injEq] at hj
        subst hj
        obtain rfl := Option.some.inj hpayload
        exact absurd heq.symm (htask j' second payload' hk' hj' hpayload')
    · by_cases hk' : j' = k
      · subst hk'
        rw [hself, Option.some.injEq] at hj'
        subst hj'
        obtain rfl := Option.some.inj hpayload'
        exact absurd heq (htask j first payload hk hj hpayload)
      · rw [hother j hk] at hj
        rw [hother j' hk'] at hj'
        exact h.distinct j j' first second payload payload' hj hj' hpayload hpayload' heq
  case present =>
    intro j other payload hj hpayload
    rw [waiters]
    by_cases hk : j = k
    · subst hk
      rw [hself, Option.some.injEq] at hj
      subst hj
      obtain rfl := Option.some.inj hpayload
      rw [show (call.buildPayload agentId taskId context).taskId = taskId from rfl,
        Function.update_self]
      exact nofun
    · rw [Function.update_of_ne (htask j other payload hk hj hpayload)]
      rw [hother j hk] at hj
      exact h.present j other payload hj hpayload
  case carries =>
    intro j other payload hj hpayload
    by_cases hk : j = k
    · subst hk
      rw [hself, Option.some.injEq] at hj
      subst hj
      obtain rfl := Option.some.inj hpayload
      exact (carries_buildPayload agent offload).congr rfl rfl rfl
    · rw [hother j hk] at hj
      exact h.carries j other payload hj hpayload
  case early =>
    intro j other hj hphase
    by_cases hk : j = k
    · subst hk
      rw [hself, Option.some.injEq] at hj
      subst hj
      rcases hphase with hphase | hphase <;> cases hphase
    · rw [hother j hk] at hj
      exact h.early j other hj hphase

theorem CallsKnown.step (h : CallsKnown w) (hstep : ControlStep w w') : CallsKnown w' := by
  cases hstep with
  | same calls waiters results => exact h.of_same calls fun t ht => waiters ▸ ht
  | waited present still silent calls waiters results =>
      exact h.of_same calls (update_ne_absent waiters still)
  | published agent phase calls waiters results => exact h.of_same calls fun t ht => waiters ▸ ht
  | received present first calls waiters results =>
      exact h.of_same calls (update_ne_absent waiters nofun)
  | @opened k adapter request free calls waiters results =>
      refine h.of_from ?_ (fun t ht => waiters ▸ ht) ?_
      · intro j other hother hsome
        rw [calls] at hother
        by_cases hj : j = k
        · subst hj
          rw [Function.update_self, Option.some.injEq] at hother
          subst hother
          exact absurd rfl hsome
        · rw [Function.update_of_ne hj] at hother
          exact ⟨other, hother, rfl, rfl, rfl, rfl⟩
      · intro j other hother hphase
        rw [calls] at hother
        by_cases hj : j = k
        · subst hj
          rw [Function.update_self, Option.some.injEq] at hother
          subst hother
          rfl
        · rw [Function.update_of_ne hj] at hother
          exact h.early j other hother hphase
  | kept mem kept calls waiters results =>
      refine h.of_update mem calls waiters kept.adapter kept.request kept.payload ?_ kept.early
      intro hsome
      refine kept.agentId fun hphase => hsome ?_
      rw [kept.payload]
      exact h.early _ _ mem (Or.inl hphase)
  | joined mem phase own done calls waiters results =>
      refine h.of_update mem calls waiters rfl rfl rfl (fun _ => rfl) ?_
      rintro (hphase | hphase) <;> cases hphase
  | prepared mem phase agent offload fresh calls waiters results =>
      exact h.prepared mem agent offload fresh calls waiters

end Calls

/-! ## Agents -/

/-- The payload of a call that is past sending it. -/
def Sent (w : World) (payload : AddressedPayload) : Prop :=
  ∃ k call, w.calls k = some call ∧ call.payload = some payload ∧ call.phase ≠ .sending

/-- What the process of an agent holds. -/
def heldAt (w : World) (a : String) : List AddressedPayload :=
  ((w.agents a).map AgentProcess.held).getD []

/-- The tasks of the payloads that are addressed to an agent. -/
def tasksOf (a : String) (payloads : List AddressedPayload) : List String :=
  (payloads.filter fun payload => decide (payload.agentId = a)).map fun payload => payload.taskId

/-- Every payload at an agent was sent, and those for the agent are there or executed once. -/
structure FleetKnown (w : World) (done : List TaskExecution) : Prop where
  sent : ∀ a, ∀ payload ∈ heldAt w a, Sent w payload
  executing : ∀ a process payload, w.agents a = some process →
    process.phase = .executing payload → payload.agentId = a
  done_sent : ∀ e ∈ done, Sent w e.payload
  executions : ∀ e ∈ done, IsExecution e
  once : ∀ a, (tasksOf a (heldAt w a ++ done.map TaskExecution.payload)).Nodup

section Fleet

variable {w w' : World} {done : List TaskExecution}

theorem fleetKnown_init : FleetKnown .init [] where
  sent := fun _ _ h => nomatch h
  executing := fun _ _ _ h => nomatch h
  done_sent := fun _ h => nomatch h
  executions := fun _ h => nomatch h
  once := fun _ => List.nodup_nil

theorem heldAt_of_some {a : String} {process : AgentProcess} (h : w.agents a = some process) :
    heldAt w a = process.held := by
  rw [heldAt, h]
  rfl

theorem heldAt_of_none {a : String} (h : w.agents a = none) : heldAt w a = [] := by
  rw [heldAt, h]
  rfl

theorem tasksOf_append (a : String) (l l' : List AddressedPayload) :
    tasksOf a (l ++ l') = tasksOf a l ++ tasksOf a l' := by
  rw [tasksOf, List.filter_append, List.map_append]
  rfl

theorem mem_tasksOf {a t : String} {l : List AddressedPayload} :
    t ∈ tasksOf a l ↔ ∃ payload ∈ l, payload.agentId = a ∧ payload.taskId = t := by
  simp only [tasksOf, List.mem_map, List.mem_filter, decide_eq_true_eq, and_assoc]

theorem tasksOf_perm (a : String) {l l' : List AddressedPayload} (h : l.Perm l') :
    (tasksOf a l).Perm (tasksOf a l') :=
  (h.filter _).map _

theorem tasksOf_sublist (a : String) {l l' : List AddressedPayload} (h : l.Sublist l') :
    (tasksOf a l).Sublist (tasksOf a l') :=
  (h.filter _).map _

/-- One task, one payload. -/
theorem Sent.payload_eq (known : CallsKnown w) {payload payload' : AddressedPayload}
    (h : Sent w payload) (h' : Sent w payload') (htask : payload.taskId = payload'.taskId) :
    payload = payload' := by
  obtain ⟨k, call, hcall, hpayload, -⟩ := h
  obtain ⟨k', call', hcall', hpayload', -⟩ := h'
  obtain rfl := known.distinct k k' call call' payload payload' hcall hcall' hpayload hpayload' htask
  obtain rfl := Option.some.inj (hcall.symm.trans hcall')
  exact Option.some.inj (hpayload.symm.trans hpayload')

/-- What was sent stays sent. -/
theorem Sent.step (known : CallsKnown w) (hstep : ControlStep w w') {payload : AddressedPayload}
    (h : Sent w payload) : Sent w' payload := by
  obtain ⟨j, other, hother, hpayload, hphase⟩ := h
  have hsame : w'.calls = w.calls → Sent w' payload := by
    intro calls
    exact ⟨j, other, by rw [calls, hother], hpayload, hphase⟩
  have hupdate : ∀ k call', w'.calls = Function.update w.calls k (some call') →
      (j = k → call'.payload = some payload ∧ call'.phase ≠ .sending) → Sent w' payload := by
    intro k call' calls hk
    by_cases hj : j = k
    · subst hj
      exact ⟨j, call', by rw [calls, Function.update_self], hk rfl⟩
    · exact ⟨j, other, by rw [calls, Function.update_of_ne hj, hother], hpayload, hphase⟩
  cases hstep with
  | same calls waiters results => exact hsame calls
  | waited present still silent calls waiters results => exact hsame calls
  | published agent phase calls waiters results => exact hsame calls
  | received present first calls waiters results => exact hsame calls
  | opened free calls waiters results =>
      apply hupdate _ _ calls
      rintro rfl
      rw [hother] at free
      cases free
  | kept mem kept calls waiters results =>
      apply hupdate _ _ calls
      rintro rfl
      obtain rfl := Option.some.inj (hother.symm.trans mem)
      exact ⟨kept.payload.trans hpayload, fun h => hphase (kept.sending h)⟩
  | joined mem phase own done calls waiters results =>
      apply hupdate _ _ calls
      rintro rfl
      obtain rfl := Option.some.inj (hother.symm.trans mem)
      exact ⟨hpayload, nofun⟩
  | prepared mem phase agent offload fresh calls waiters results =>
      apply hupdate _ _ calls
      rintro rfl
      obtain rfl := Option.some.inj (hother.symm.trans mem)
      rw [known.early _ _ mem (Or.inr phase)] at hpayload
      cases hpayload

theorem AgentProcess.held_deliver (process : AgentProcess) (payload : AddressedPayload) :
    (process.deliver payload).held = process.held ∨
      (process.deliver payload).held = process.held ++ [payload] := by
  rw [AgentProcess.deliver]
  split
  · exact Or.inl rfl
  · exact Or.inl rfl
  · right
    simp only [AgentProcess.held]
    split <;> rfl

/-- A step in which nothing is completed: what an agent holds comes from `held`. -/
theorem FleetKnown.of_held (h : FleetKnown w done) (known : CallsKnown w)
    (hcontrol : ControlStep w w')
    (sublist : ∀ a, (heldAt w' a).Sublist (heldAt w a))
    (executing : ∀ a process payload, w'.agents a = some process →
      process.phase = .executing payload → payload.agentId = a) : FleetKnown w' done := by
  constructor
  case sent =>
    intro a payload hmem
    exact (h.sent a payload ((sublist a).subset hmem)).step known hcontrol
  case executing => exact executing
  case done_sent => exact fun e he => (h.done_sent e he).step known hcontrol
  case executions => exact h.executions
  case once =>
    intro a
    exact (h.once a).sublist (tasksOf_sublist a ((sublist a).append (List.Sublist.refl _)))

theorem FleetKnown.quiet (h : FleetKnown w done) (known : CallsKnown w)
    (hcontrol : ControlStep w w')
    (quiet : ∀ a process', w'.agents a = some process' →
      (∃ process, w.agents a = some process ∧ AgentProcess.Quiet a process process') ∨
        process' = .spawned process'.descriptor) : FleetKnown w' done := by
  refine h.of_held known hcontrol ?_ ?_
  · intro a
    cases hafter : w'.agents a with
    | none =>
        rw [heldAt_of_none hafter]
        exact List.nil_sublist _
    | some process' =>
        rw [heldAt_of_some hafter]
        rcases quiet a process' hafter with ⟨process, hbefore, hquiet⟩ | hspawned
        · rw [heldAt_of_some hbefore]
          exact hquiet.held
        · rw [hspawned]
          exact List.nil_sublist _
  · intro a process' payload hafter hphase
    rcases quiet a process' hafter with ⟨process, hbefore, hquiet⟩ | hspawned
    · rcases hquiet.executing payload hphase with hold | hown
      · exact h.executing a process payload hbefore hold
      · exact hown
    · rw [hspawned] at hphase
      cases hphase

/-- A completed payload moves from its agent to the executions. -/
theorem FleetKnown.executed (h : FleetKnown w done) (known : CallsKnown w)
    (hcontrol : ControlStep w w') {agentId : String} {process : AgentProcess}
    {payload : AddressedPayload} {loop : DispatchLoop} (agent : w.agents agentId = some process)
    (phase : process.phase = .executing payload) (own : loop.agentId = agentId)
    (agents : w'.agents = Function.update w.agents agentId
      (some
        { process with
          activeTasks := process.activeTasks - 1
          phase := .publishing (loop.executeTask payload.toTaskPayload) })) :
    FleetKnown w'
      (done ++ [⟨agentId, payload, loop.executeTask payload.toTaskPayload⟩]) := by
  have haddress := h.executing agentId process payload agent phase
  have hbefore : heldAt w agentId = payload :: process.inbox := by
    rw [heldAt_of_some agent, AgentProcess.held, phase]
  have hafter : heldAt w' agentId = process.inbox := by
    rw [heldAt, agents, Function.update_self]
    rfl
  have hother : ∀ a, a ≠ agentId → heldAt w' a = heldAt w a := by
    intro a ha
    rw [heldAt, agents, Function.update_of_ne ha, heldAt]
  have hsent : Sent w payload :=
    h.sent agentId payload (by rw [hbefore]; exact List.mem_cons_self)
  constructor
  case sent =>
    intro a other hmem
    refine (h.sent a other ?_).step known hcontrol
    by_cases ha : a = agentId
    · subst ha
      rw [hafter] at hmem
      rw [hbefore]
      exact List.mem_cons_of_mem _ hmem
    · rwa [hother a ha] at hmem
  case executing =>
    intro a other payload' hagent hphase
    rw [agents] at hagent
    by_cases ha : a = agentId
    · subst ha
      rw [Function.update_self, Option.some.injEq] at hagent
      subst hagent
      cases hphase
    · rw [Function.update_of_ne ha] at hagent
      exact h.executing a other payload' hagent hphase
  case done_sent =>
    intro e he
    rcases List.mem_append.mp he with hold | hnew
    · exact (h.done_sent e hold).step known hcontrol
    · obtain rfl := List.mem_singleton.mp hnew
      exact hsent.step known hcontrol
  case executions =>
    intro e he
    rcases List.mem_append.mp he with hold | hnew
    · exact h.executions e hold
    · obtain rfl := List.mem_singleton.mp hnew
      exact ⟨haddress, loop, own, rfl⟩
  case once =>
    intro a
    rw [List.map_append, List.map_singleton]
    by_cases ha : a = agentId
    · subst ha
      have hperm : (process.inbox ++ (done.map TaskExecution.payload ++ [payload])).Perm
          (payload :: process.inbox ++ done.map TaskExecution.payload) := by
        rw [← List.append_assoc]
        exact List.perm_append_singleton payload _
      rw [hafter]
      refine (tasksOf_perm a hperm).nodup_iff.mpr ?_
      rw [← hbefore]
      exact h.once a
    · have hnone : tasksOf a [payload] = [] := by
        rw [tasksOf, List.filter_singleton, haddress]
        simp [Ne.symm ha]
      rw [hother a ha, ← List.append_assoc, tasksOf_append, hnone, List.append_nil]
      exact h.once a

/-- A payload reaches agents that never had it. -/
theorem FleetKnown.delivered (h : FleetKnown w done) (known : CallsKnown w)
    (hcontrol : ControlStep w w') {k : ℕ} {call : Call} {payload : AddressedPayload}
    (mem : w.calls k = some call) (phase : call.phase = .sending)
    (own : call.payload = some payload)
    (after : ∃ call', w'.calls k = some call' ∧ call'.payload = some payload ∧
      call'.phase ≠ .sending)
    (delivered : ∀ a process', w'.agents a = some process' → ∃ process,
      w.agents a = some process ∧ (process' = process ∨ process' = process.deliver payload)) :
    FleetKnown w' done := by
  have hnew : ∀ other, Sent w other → other.taskId ≠ payload.taskId := by
    rintro other ⟨j, call', hcall', hpayload', hphase'⟩ htask
    obtain rfl := known.distinct j k call' call other payload hcall' mem hpayload' own htask
    obtain rfl := Option.some.inj (hcall'.symm.trans mem)
    exact hphase' phase
  have hheld : ∀ a, heldAt w' a = [] ∨ heldAt w' a = heldAt w a ∨
      heldAt w' a = heldAt w a ++ [payload] := by
    intro a
    cases hafter : w'.agents a with
    | none => exact Or.inl (heldAt_of_none hafter)
    | some process' =>
        right
        obtain ⟨process, hbefore, rfl | rfl⟩ := delivered a process' hafter
        · rw [heldAt_of_some hafter, heldAt_of_some hbefore]
          exact Or.inl rfl
        · rw [heldAt_of_some hafter, heldAt_of_some hbefore]
          exact AgentProcess.held_deliver process payload
  have hsent : Sent w' payload := by
    obtain ⟨call', hcall', hpayload', hphase'⟩ := after
    exact ⟨k, call', hcall', hpayload', hphase'⟩
  have hdone : ∀ e ∈ done, Sent w' e.payload := fun e he =>
    (h.done_sent e he).step known hcontrol
  constructor
  case sent =>
    intro a other hmem
    rcases hheld a with hnone | hsame | hmore
    · rw [hnone] at hmem
      cases hmem
    · rw [hsame] at hmem
      exact (h.sent a other hmem).step known hcontrol
    · rw [hmore] at hmem
      rcases List.mem_append.mp hmem with hold | hlast
      · exact (h.sent a other hold).step known hcontrol
      · rwa [List.mem_singleton.mp hlast]
  case executing =>
    intro a process' other hafter hphase
    obtain ⟨process, hbefore, rfl | rfl⟩ := delivered a process' hafter
    · exact h.executing a process' other hbefore hphase
    · refine h.executing a process other hbefore ?_
      rw [AgentProcess.deliver] at hphase
      split at hphase
      · exact hphase
      · exact hphase
      · exact hphase
  case done_sent => exact hdone
  case executions => exact h.executions
  case once =>
    intro a
    rcases hheld a with hnone | hsame | hmore
    · rw [hnone]
      exact (h.once a).sublist (tasksOf_sublist a (List.sublist_append_right _ _))
    · rw [hsame]
      exact h.once a
    · have hperm : (heldAt w a ++ [payload] ++ done.map TaskExecution.payload).Perm
          ([payload] ++ (heldAt w a ++ done.map TaskExecution.payload)) := by
        rw [← List.append_assoc]
        exact List.Perm.append_right _ (List.perm_append_comm)
      rw [hmore]
      refine (tasksOf_perm a hperm).nodup_iff.mpr ?_
      rw [tasksOf_append]
      refine List.Nodup.append ?_ (h.once a) ?_
      · exact (List.nodup_singleton payload.taskId).sublist
          (List.filter_sublist.map fun p : AddressedPayload => p.taskId)
      · intro t ht hmem
        obtain ⟨other, hother, -, rfl⟩ := mem_tasksOf.mp hmem
        obtain ⟨mine, hmine, -, htask⟩ := mem_tasksOf.mp ht
        rw [List.mem_singleton] at hmine
        subst hmine
        refine hnew other ?_ htask.symm
        rcases List.mem_append.mp hother with hin | hdone
        · exact h.sent a other hin
        · obtain ⟨e, he, rfl⟩ := List.mem_map.mp hdone
          exact h.done_sent e he

theorem FleetKnown.step (h : FleetKnown w done) (known : CallsKnown w)
    (hcontrol : ControlStep w w') {e : Option TaskExecution} (hstep : AgentsStep w w' e) :
    FleetKnown w' (done ++ e.toList) := by
  cases hstep with
  | quiet quiet =>
      rw [Option.toList_none, List.append_nil]
      exact h.quiet known hcontrol quiet
  | executed agent phase own agents =>
      rw [Option.toList_some]
      exact h.executed known hcontrol agent phase own agents
  | sent mem phase own after delivered =>
      rw [Option.toList_none, List.append_nil]
      exact h.delivered known hcontrol mem phase own after delivered

/-- No task is executed twice, at whatever agents. -/
theorem FleetKnown.nodup (h : FleetKnown w done) (known : CallsKnown w) :
    (done.map fun e => e.payload.taskId).Nodup := by
  rw [List.nodup_iff_sublist]
  intro t hsub
  obtain ⟨l, hl, heq⟩ := List.sublist_map_iff.mp hsub
  obtain ⟨e, rest, rfl, he, hrest⟩ := List.map_eq_cons_iff.mp heq.symm
  obtain ⟨e', rest', rfl, he', hrest'⟩ := List.map_eq_cons_iff.mp hrest
  obtain rfl := List.map_eq_nil_iff.mp hrest'
  have hmem : e ∈ done := hl.subset (by simp)
  have hmem' : e' ∈ done := hl.subset (by simp)
  have hsame : e.payload = e'.payload :=
    (h.done_sent e hmem).payload_eq known (h.done_sent e' hmem') (he.trans he'.symm)
  have htwice : [t, t].Sublist
      (tasksOf e.payload.agentId (heldAt w e.payload.agentId ++ done.map TaskExecution.payload)) := by
    have hpair := tasksOf_sublist e.payload.agentId (hl.map TaskExecution.payload)
    have htasks : tasksOf e.payload.agentId ([e, e'].map TaskExecution.payload) = [t, t] := by
      simp [tasksOf, ← hsame, he]
    rw [htasks] at hpair
    exact hpair.trans (tasksOf_sublist _ (List.sublist_append_right _ _))
  exact List.nodup_iff_sublist.mp (h.once e.payload.agentId) t htwice

end Fleet

/-! ## Answers -/

/-- Results, wherever they are, came out of executions. -/
structure AnswersKnown (w : World) (done : List TaskExecution) : Prop where
  results : ∀ r ∈ w.results, ∃ e ∈ done, e.result = r
  publishing : ∀ a process r, w.agents a = some process → process.phase = .publishing r →
    ∃ e ∈ done, e.result = r
  waiters : ∀ t r, w.waiters t = .done (.ok r) → r.taskId = t ∧ ∃ e ∈ done, e.result = r
  answered : ∀ k call response, w.calls k = some call → call.phase = .returned (.ok response) →
    ∃ e ∈ done, AnsweredBy call response e

section Answers

variable {w w' : World} {done : List TaskExecution}

theorem answersKnown_init : AnswersKnown .init [] where
  results := fun _ h => nomatch h
  publishing := fun _ _ _ h => nomatch h
  waiters := fun _ _ h => nomatch h
  answered := fun _ _ _ h => nomatch h

theorem taskId_result {e : TaskExecution} (h : IsExecution e) :
    e.result.taskId = e.payload.taskId := by
  obtain ⟨loop, -, hresult⟩ := h.run
  rw [hresult]
  rfl

theorem answer_eq_ok {result : Except String TaskResult} {response : ComputeResponse}
    (h : Call.answer result = .ok response) : ∃ r, result = .ok r ∧ r.error = none ∧
      response = { output := r.output, tokenCost := r.tokenCost } := by
  unfold Call.answer at h
  split at h
  · cases h
  next r =>
      split at h
      · cases h
      next herror =>
          obtain rfl := Except.ok.inj h
          exact ⟨r, rfl, herror, rfl⟩

/-- The result that a call waits for is that of its own payload. -/
theorem AnswersKnown.joined (h : AnswersKnown w done) (known : CallsKnown w)
    (fleet : FleetKnown w done) {k : ℕ} {call : Call} {payload : AddressedPayload}
    {result : Except String TaskResult} {response : ComputeResponse}
    (mem : w.calls k = some call) (own : call.payload = some payload)
    (waiter : w.waiters payload.taskId = .done result)
    (ok : Call.answer result = .ok response) : ∃ e ∈ done, AnsweredBy
      { call with phase := .returned (Call.answer result) } response e := by
  obtain ⟨r, rfl, herror, hresponse⟩ := answer_eq_ok ok
  obtain ⟨htask, e, he, rfl⟩ := h.waiters payload.taskId r waiter
  obtain ⟨k', call', hcall', hpayload', -⟩ := fleet.done_sent e he
  have hsame : e.payload.taskId = payload.taskId :=
    (taskId_result (fleet.executions e he)).symm.trans htask
  obtain rfl := known.distinct k' k call' call e.payload payload hcall' mem hpayload' own hsame
  obtain rfl := Option.some.inj (hcall'.symm.trans mem)
  refine ⟨e, he, ?_⟩
  constructor
  case payload => exact hpayload'
  case carries => exact (known.carries k' call' e.payload mem hpayload').congr rfl rfl rfl
  case error => exact herror
  case response => exact hresponse

/-- A result that an agent is about to publish. -/
theorem publishing_step {e : Option TaskExecution} (h : AnswersKnown w done)
    (hstep : AgentsStep w w' e) : ∀ a process' r, w'.agents a = some process' →
      process'.phase = .publishing r → ∃ e' ∈ done ++ e.toList, e'.result = r := by
  have hold : ∀ a process r, w.agents a = some process → process.phase = .publishing r →
      ∃ e' ∈ done ++ e.toList, e'.result = r := by
    intro a process r hagent hphase
    obtain ⟨e', he', hr⟩ := h.publishing a process r hagent hphase
    exact ⟨e', List.mem_append_left _ he', hr⟩
  intro a process' r hagent hphase
  cases hstep with
  | quiet quiet =>
      rcases quiet a process' hagent with ⟨process, hbefore, hquiet⟩ | hspawned
      · exact hold a process r hbefore (hquiet.publishing r hphase)
      · rw [hspawned] at hphase
        cases hphase
  | @executed agentId process payload loop agent phase own agents =>
      by_cases ha : a = agentId
      · subst ha
        rw [agents, Function.update_self, Option.some.injEq] at hagent
        subst hagent
        obtain rfl : loop.executeTask payload.toTaskPayload = r := by simpa using hphase
        exact ⟨_, List.mem_append_right _ (List.mem_singleton.mpr rfl), rfl⟩
      · rw [agents, Function.update_of_ne ha] at hagent
        exact hold a process' r hagent hphase
  | sent mem phase own after delivered =>
      obtain ⟨process, hbefore, rfl | rfl⟩ := delivered a process' hagent
      · exact hold a process' r hbefore hphase
      · refine hold a process r hbefore ?_
        rw [AgentProcess.deliver] at hphase
        split at hphase
        · exact hphase
        · exact hphase
        · exact hphase

theorem AnswersKnown.step (h : AnswersKnown w done) (known : CallsKnown w)
    (fleet : FleetKnown w done) (hcontrol : ControlStep w w') {e : Option TaskExecution}
    (hstep : AgentsStep w w' e) : AnswersKnown w' (done ++ e.toList) := by
  have hmore : ∀ r, (∃ e' ∈ done, e'.result = r) → ∃ e' ∈ done ++ e.toList, e'.result = r := by
    rintro r ⟨e', he', hr⟩
    exact ⟨e', List.mem_append_left _ he', hr⟩
  have hanswers : ∀ call response, (∃ e' ∈ done, AnsweredBy call response e') →
      ∃ e' ∈ done ++ e.toList, AnsweredBy call response e' := by
    rintro call response ⟨e', he', hanswered⟩
    exact ⟨e', List.mem_append_left _ he', hanswered⟩
  have hresults : w'.results = w.results → ∀ r ∈ w'.results, ∃ e' ∈ done ++ e.toList,
      e'.result = r := fun heq r hr => hmore r (h.results r (heq ▸ hr))
  have hwaiters : w'.waiters = w.waiters → ∀ t r, w'.waiters t = .done (.ok r) →
      r.taskId = t ∧ ∃ e' ∈ done ++ e.toList, e'.result = r := by
    intro heq t r ht
    rw [heq] at ht
    exact ⟨(h.waiters t r ht).1, hmore r (h.waiters t r ht).2⟩
  have hcalls : w'.calls = w.calls → ∀ k call response, w'.calls k = some call →
      call.phase = .returned (.ok response) →
      ∃ e' ∈ done ++ e.toList, AnsweredBy call response e' := by
    intro heq k call response hcall hphase
    rw [heq] at hcall
    exact hanswers call response (h.answered k call response hcall hphase)
  have hupdate : ∀ k call', w'.calls = Function.update w.calls k (some call') →
      (∀ response, call'.phase = .returned (.ok response) → ∃ e' ∈ done,
        AnsweredBy call' response e') → ∀ j call response, w'.calls j = some call →
      call.phase = .returned (.ok response) →
      ∃ e' ∈ done ++ e.toList, AnsweredBy call response e' := by
    intro k call' heq hcase j call response hcall hphase
    rw [heq] at hcall
    by_cases hj : j = k
    · subst hj
      rw [Function.update_self, Option.some.injEq] at hcall
      subst hcall
      exact hanswers _ response (hcase response hphase)
    · rw [Function.update_of_ne hj] at hcall
      exact hanswers call response (h.answered j call response hcall hphase)
  have hpublishing := publishing_step h hstep
  cases hcontrol with
  | same calls waiters results =>
      exact ⟨hresults results, hpublishing, hwaiters waiters, hcalls calls⟩
  | @waited taskId waiter present still silent calls waiters results =>
      refine ⟨hresults results, hpublishing, ?_, hcalls calls⟩
      intro t r ht
      rw [waiters] at ht
      by_cases heq : t = taskId
      · subst heq
        rw [Function.update_self] at ht
        exact absurd ht (silent r)
      · rw [Function.update_of_ne heq] at ht
        exact ⟨(h.waiters t r ht).1, hmore r (h.waiters t r ht).2⟩
  | opened free calls waiters results =>
      refine ⟨hresults results, hpublishing, hwaiters waiters, hupdate _ _ calls ?_⟩
      exact fun _ hphase => nomatch hphase
  | kept mem kept calls waiters results =>
      refine ⟨hresults results, hpublishing, hwaiters waiters, hupdate _ _ calls ?_⟩
      exact fun response hphase => absurd hphase (kept.silent response)
  | @prepared k call agentId taskId context put mem phase agent offload fresh calls waiters
      results =>
      refine ⟨hresults results, hpublishing, ?_, hupdate _ _ calls ?_⟩
      · intro t r ht
        rw [waiters] at ht
        by_cases heq : t = taskId
        · subst heq
          rw [Function.update_self] at ht
          cases ht
        · rw [Function.update_of_ne heq] at ht
          exact ⟨(h.waiters t r ht).1, hmore r (h.waiters t r ht).2⟩
      · exact fun _ hphase => nomatch hphase
  | published agent phase calls waiters results =>
      refine ⟨?_, hpublishing, hwaiters waiters, hcalls calls⟩
      intro r hr
      rw [results] at hr
      rcases List.mem_append.mp hr with hold | hnew
      · exact hmore r (h.results r hold)
      · obtain rfl := List.mem_singleton.mp hnew
        exact hmore _ (h.publishing _ _ _ agent phase)
  | @received taskId result present first calls waiters results =>
      have hfound := List.mem_of_find?_eq_some first
      have htask : result.taskId = taskId := by simpa using List.find?_some first
      refine ⟨?_, hpublishing, ?_, hcalls calls⟩
      · rw [results]
        exact fun r hr => hmore r (h.results r (List.mem_of_mem_eraseP hr))
      · intro t r ht
        rw [waiters] at ht
        by_cases heq : t = taskId
        · subst heq
          rw [Function.update_self] at ht
          obtain rfl : result = r := by simpa using ht
          exact ⟨htask, hmore _ (h.results _ hfound)⟩
        · rw [Function.update_of_ne heq] at ht
          exact ⟨(h.waiters t r ht).1, hmore r (h.waiters t r ht).2⟩
  | joined mem phase own waiter calls waiters results =>
      refine ⟨hresults results, hpublishing, hwaiters waiters, hupdate _ _ calls ?_⟩
      intro response hphase
      exact h.joined known fleet mem own waiter (CallPhase.returned.inj hphase)

end Answers

/-! ## Runs -/

theorem edgeGuarantee_run {p : Provider} {actions : List Action} {w w' : World}
    {done : List TaskExecution} (known : CallsKnown w) (fleet : FleetKnown w done)
    (answers : AnswersKnown w done) (run : runActions (step p) w actions = some w') :
    EdgeGuarantee w' (done ++ executions p w actions) := by
  induction actions generalizing w done with
  | nil =>
      obtain rfl := Option.some.inj run
      rw [executions, List.append_nil]
      exact ⟨fleet.nodup known, fleet.executions, answers.answered, known.distinct⟩
  | cons action rest ih =>
      rw [runActions] at run
      cases hstep : step p w action with
      | none =>
          rw [hstep] at run
          cases run
      | some next =>
          rw [hstep] at run
          have hcontrol := step_control hstep
          have hagents := step_agents hstep
          have hnext := ih (known.step hcontrol) (fleet.step known hcontrol hagents)
            (answers.step known fleet hcontrol hagents) run
          rwa [executions, hstep, ← List.append_assoc]

/-! ## The guarantee -/

/-- In every run no task is executed twice, and every answer that a call returns is what the
selected agent made of the request of this call. -/
theorem edge_answers_own_execution {p : Provider} {actions : List Action} {w : World}
    (run : runActions (step p) .init actions = some w) :
    EdgeGuarantee w (executions p .init actions) :=
  edgeGuarantee_run callsKnown_init fleetKnown_init answersKnown_init run

section Example

/-- An agent that answers every call at once. -/
def echoLoop : DispatchLoop where
  agentId := "a"
  adapter := fun _ request => .ok { output := request.task, tokenCost := 1 }
  forWave := fun _ => { executors := [], keys := List.nodup_nil }
  json := { fromStr := fun _ => none, valueLength := fun _ => none }
  agentMaxToolIterations := 1
  agentMaxObservationChars := 0

def midDescriptor : AgentDescriptor where
  model := "local"
  tools := []
  costTier := .mid

def echoAdapter : NatsDispatchAdapter where
  descriptor := midDescriptor
  requirements := { maxCostTier := .mid, requiredTools := [] }
  timeout := 120
  offloadThresholdBytes := 8

/-- One agent and one call, whose result is there before the waiter listens. -/
def echoRun : List Action :=
  [.start "a" midDescriptor, .subscribe "a", .heartbeat "a", .deliverHeartbeat 0,
    .call 0 echoAdapter { systemContext := "", task := "hi", tau := 0, maxTokens := 16 },
    .select 0, .prepare 0 "t" (.ok ""), .publish 0 ["a"], .take "a", .execute "a" echoLoop,
    .publishResult "a" true, .listen "t" (.ok ()), .receive "t" (.ok ()), .join 0]

def echoProvider : Provider where
  policy := .leastLoaded
  ttl := 30

theorem edge_answers_own_execution_echo : ∃ w,
    runActions (step echoProvider) .init echoRun = some w ∧
      (executions echoProvider .init echoRun).length = 1 ∧
      EdgeGuarantee w (executions echoProvider .init echoRun) := by
  obtain ⟨w, hw⟩ : ∃ w, runActions (step echoProvider) .init echoRun = some w :=
    Option.isSome_iff_exists.mp (by decide)
  exact ⟨w, hw, by decide, edge_answers_own_execution hw⟩

end Example

end ControlPlane.Guarantees.EdgeAnswers
