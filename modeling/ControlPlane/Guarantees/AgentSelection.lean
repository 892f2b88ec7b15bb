import ControlPlane.Source.Agent.EdgeSteps

/-!
# Selection of edge agents in the running system

The registry of edge agents is fed by heartbeats that may be late, lost and out of order, and
it is walked in any order. In every reachable state the selection does not depend on that
order, and the agent it picks has the required tools and tier. An agent works on one payload
at a time, so that no registration ever counts more than one active task: with a threshold of
two or more the spillover policy never leaves the cheapest tier and picks what the least-loaded
policy picks.
-/
namespace ControlPlane.Guarantees.AgentSelection

open Lib Source.Agent

/-! ## Statement -/

/-- An agent whose heartbeat has come in not long ago and whose own descriptor suits. -/
structure IsSuitable (p : Provider) (w : World) (requirements : TaskRequirements) (a : String) :
    Prop where
  registered : ∃ r, (a, r) ∈ w.registry ∧ w.now < r.lastSeen + p.ttl ∧ r.lastSeen ≤ w.now
  process : ∃ process, w.agents a = some process ∧
    process.descriptor.costTier ≤ requirements.maxCostTier ∧
    ∀ t ∈ requirements.requiredTools, t ∈ process.descriptor.tools

/-! ## Candidates -/

section Candidates

variable {registry registry' : AgentRegistry} {policy : SchedulerPolicy} {ttl now : ℕ}
  {requirements : TaskRequirements}

theorem mem_candidates {c : AgentCandidate} :
    c ∈ registry.candidates ttl now requirements ↔ ∃ r, (c.agentId, r) ∈ registry ∧
      r.suits ttl now requirements = true ∧ c.descriptor = r.descriptor ∧
      c.activeTasks = r.activeTasks := by
  simp only [AgentRegistry.candidates, List.mem_map, List.mem_filter]
  constructor
  · rintro ⟨⟨a, r⟩, ⟨hmem, hsuits⟩, rfl⟩
    exact ⟨r, hmem, hsuits, rfl, rfl⟩
  · rintro ⟨r, hmem, hsuits, hdescriptor, hactive⟩
    refine ⟨(c.agentId, r), ⟨hmem, hsuits⟩, ?_⟩
    rw [← hdescriptor, ← hactive]

theorem suits_iff {r : AgentRegistration} : r.suits ttl now requirements = true ↔
    now < r.lastSeen + ttl ∧ r.descriptor.costTier ≤ requirements.maxCostTier ∧
      ∀ t ∈ requirements.requiredTools, t ∈ r.descriptor.tools := by
  simp only [AgentRegistration.suits, AgentRegistration.live, Bool.and_eq_true,
    decide_eq_true_eq, List.all_eq_true, List.contains_iff_mem, and_assoc]

theorem selectAgent_of_perm (hperm : registry.Perm registry') :
    registry'.selectAgent policy ttl now requirements =
      registry.selectAgent policy ttl now requirements := by
  have hcandidates : (registry.candidates ttl now requirements).Perm
      (registry'.candidates ttl now requirements) := (hperm.filter _).map _
  rw [AgentRegistry.selectAgent, AgentRegistry.selectAgent, select_of_perm policy hcandidates]

theorem selectAgent_eq_ok {a : String}
    (h : registry.selectAgent policy ttl now requirements = .ok a) : ∃ c,
      IsPick policy (registry.candidates ttl now requirements) c ∧ c.agentId = a := by
  rw [AgentRegistry.selectAgent] at h
  by_cases hnil : registry.candidates ttl now requirements = []
  · rw [hnil, select_nil] at h
    cases h
  · obtain ⟨c, hpick, hselect⟩ := select_spec policy hnil
    rw [hselect] at h
    exact ⟨c, hpick, Except.ok.inj h⟩

theorem selectAgent_eq_error {e : ProvisionError}
    (h : registry.selectAgent policy ttl now requirements = .error e) :
    e = .noAgentsAvailable requirements.maxCostTier requirements.requiredTools ∧
      ∀ entry ∈ registry, entry.2.suits ttl now requirements = false := by
  rw [AgentRegistry.selectAgent] at h
  by_cases hnil : registry.candidates ttl now requirements = []
  · rw [hnil, select_nil] at h
    refine ⟨(Except.error.inj h).symm, ?_⟩
    intro entry hentry
    by_contra hsuits
    rw [Bool.not_eq_false] at hsuits
    have hmem : (⟨entry.1, entry.2.descriptor, entry.2.activeTasks⟩ : AgentCandidate) ∈
        registry.candidates ttl now requirements :=
      mem_candidates.mpr ⟨entry.2, hentry, hsuits, rfl, rfl⟩
    rw [hnil] at hmem
    cases hmem
  · obtain ⟨c, -, hselect⟩ := select_spec policy hnil
    rw [hselect] at h
    cases h

end Candidates

/-! ## Agents and their tasks -/

/-- The counter of a process: a task while it executes one, and none while it goes on. -/
structure Counts (process : AgentProcess) : Prop where
  le_one : process.activeTasks ≤ 1
  executing : ∀ payload, process.phase = .executing payload → process.activeTasks = 1
  idle : process.phase = .idle → process.activeTasks = 0
  starting : process.phase = .starting → process.activeTasks = 0
  publishing : ∀ r, process.phase = .publishing r → process.activeTasks = 0

/-- Agents never vanish and keep their descriptor, and the counters stay right. -/
structure FleetStep (w w' : World) : Prop where
  forth : ∀ a process, w.agents a = some process → ∃ process', w'.agents a = some process' ∧
    process'.descriptor = process.descriptor
  back : ∀ a process', w'.agents a = some process' → (∃ process, w.agents a = some process ∧
    (Counts process → Counts process')) ∨ process' = .spawned process'.descriptor

section Fleet

variable {p : Provider} {w w' : World} {action : Action}

theorem counts_spawned (descriptor : AgentDescriptor) : Counts (.spawned descriptor) where
  le_one := Nat.zero_le 1
  executing := fun _ h => nomatch h
  idle := fun h => nomatch h
  starting := fun _ => rfl
  publishing := fun _ h => nomatch h

/-- A process without a task in work. -/
theorem counts_of_zero {process : AgentProcess} (zero : process.activeTasks = 0)
    (phase : ∀ payload, process.phase ≠ .executing payload) : Counts process where
  le_one := by omega
  executing := fun payload h => absurd h (phase payload)
  idle := fun _ => zero
  starting := fun _ => zero
  publishing := fun _ _ => zero

theorem Counts.crash {process : AgentProcess} (h : Counts process) : Counts process.crash where
  le_one := h.le_one
  executing := fun _ h => nomatch h
  idle := fun h => nomatch h
  starting := fun h => nomatch h
  publishing := fun _ h => nomatch h

/-- Fields that no phase depends on. -/
theorem Counts.congr {process process' : AgentProcess} (h : Counts process)
    (active : process'.activeTasks = process.activeTasks) (phase : process'.phase = process.phase) :
    Counts process' where
  le_one := active ▸ h.le_one
  executing := fun payload hphase => active.trans (h.executing payload (phase ▸ hphase))
  idle := fun hphase => active.trans (h.idle (phase ▸ hphase))
  starting := fun hphase => active.trans (h.starting (phase ▸ hphase))
  publishing := fun r hphase => active.trans (h.publishing r (phase ▸ hphase))

theorem counts_subscribe {process process' : AgentProcess}
    (h : process.subscribe = some process') :
    process'.descriptor = process.descriptor ∧ (Counts process → Counts process') := by
  rw [AgentProcess.subscribe] at h
  split at h
  next hphase =>
      obtain rfl := Option.some.inj h
      exact ⟨rfl, fun hcounts => counts_of_zero (hcounts.starting hphase) (by simp)⟩
  · cases h

theorem counts_stop {process process' : AgentProcess} (h : process.stop = some process') :
    process'.descriptor = process.descriptor ∧ (Counts process → Counts process') := by
  rw [AgentProcess.stop] at h
  split at h
  · split at h
    · obtain rfl := Option.some.inj h
      exact ⟨rfl, Counts.crash⟩
    · cases h
  · cases h

theorem counts_take {agentId : String} {process process' : AgentProcess}
    (h : process.take agentId = some process') :
    process'.descriptor = process.descriptor ∧ (Counts process → Counts process') := by
  rw [AgentProcess.take] at h
  split at h
  next payload rest hphase hinbox =>
      split at h
      · obtain rfl := Option.some.inj h
        refine ⟨rfl, fun hcounts => ?_⟩
        have hone : process.activeTasks + 1 = 1 := by rw [hcounts.idle hphase]
        exact ⟨hone.le, fun _ _ => hone, by simp, by simp, by simp⟩
      · obtain rfl := Option.some.inj h
        exact ⟨rfl, fun hcounts => hcounts.congr rfl rfl⟩
  · cases h

theorem counts_execute {loop : DispatchLoop} {process process' : AgentProcess}
    (h : process.execute loop = some process') :
    process'.descriptor = process.descriptor ∧ (Counts process → Counts process') := by
  rw [AgentProcess.execute] at h
  split at h
  next payload hphase =>
      obtain rfl := Option.some.inj h
      refine ⟨rfl, fun hcounts => counts_of_zero ?_ (by simp)⟩
      simp only [hcounts.executing payload hphase, Nat.sub_self]
  · cases h

theorem deliver_eq (process : AgentProcess) (payload : AddressedPayload) :
    (process.deliver payload).descriptor = process.descriptor ∧
      (process.deliver payload).activeTasks = process.activeTasks ∧
      (process.deliver payload).phase = process.phase := by
  rw [AgentProcess.deliver]
  split <;> exact ⟨rfl, rfl, rfl⟩

theorem fleetStep_of_eq (h : w'.agents = w.agents) : FleetStep w w' where
  forth := fun _ process hagent => ⟨process, by rw [h, hagent], rfl⟩
  back := fun _ process' hagent => Or.inl ⟨process', by rw [← h, hagent], id⟩

theorem fleetStep_of_update {agentId : String} {process process' : AgentProcess}
    (hagent : w.agents agentId = some process)
    (hagents : w'.agents = Function.update w.agents agentId (some process'))
    (kept : process'.descriptor = process.descriptor ∧ (Counts process → Counts process')) :
    FleetStep w w' := by
  constructor
  case forth =>
    intro a before hbefore
    rw [hagents]
    by_cases ha : a = agentId
    · subst ha
      obtain rfl := Option.some.inj (hbefore.symm.trans hagent)
      exact ⟨process', Function.update_self _ _ _, kept.1⟩
    · exact ⟨before, by rw [Function.update_of_ne ha, hbefore], rfl⟩
  case back =>
    intro a after hafter
    rw [hagents] at hafter
    by_cases ha : a = agentId
    · subst ha
      rw [Function.update_self, Option.some.injEq] at hafter
      subst hafter
      exact Or.inl ⟨process, hagent, kept.2⟩
    · rw [Function.update_of_ne ha] at hafter
      exact Or.inl ⟨after, hafter, id⟩

theorem fleetStep_of_withAgent {agentId : String} {f : AgentProcess → Option AgentProcess}
    (h : w.withAgent agentId f = some w')
    (kept : ∀ process process', f process = some process' →
      process'.descriptor = process.descriptor ∧ (Counts process → Counts process')) :
    FleetStep w w' := by
  obtain ⟨process, process', hagent, hf, rfl⟩ := withAgent_eq_some.mp h
  exact fleetStep_of_update hagent rfl (kept process process' hf)

/-- What happens to the heartbeats and the registry. -/
inductive RegistryStep (p : Provider) (w w' : World) : Prop where
  | shrunk (now : w.now ≤ w'.now) (heartbeats : w'.heartbeats.Sublist w.heartbeats)
      (registry : w'.registry.Sublist w.registry)
  | sent {agentId : String} {process : AgentProcess} (agent : w.agents agentId = some process)
      (now : w'.now = w.now)
      (heartbeats : w'.heartbeats =
        w.heartbeats ++ [⟨agentId, process.descriptor, process.activeTasks⟩])
      (registry : w'.registry = w.registry)
  | delivered {hb : AgentHeartbeat} (mem : hb ∈ w.heartbeats) (now : w'.now = w.now)
      (heartbeats : w'.heartbeats.Sublist w.heartbeats)
      (registry : w'.registry = w.registry.insertHeartbeat w.now hb)

theorem registryStep_of_eq (now : w'.now = w.now) (heartbeats : w'.heartbeats = w.heartbeats)
    (registry : w'.registry = w.registry) : RegistryStep p w w' :=
  .shrunk now.ge (heartbeats ▸ List.Sublist.refl _) (registry ▸ List.Sublist.refl _)

theorem step_fleet (h : step p w action = some w') :
    FleetStep w w' ∧ RegistryStep p w w' := by
  cases action with
  | tick elapsed =>
      obtain rfl := Option.some.inj h
      exact ⟨fleetStep_of_eq rfl,
        .shrunk (Nat.le_add_right _ _) (List.Sublist.refl _) (List.Sublist.refl _)⟩
  | start agentId descriptor =>
      simp only [step] at h
      split at h
      next hnone =>
          obtain rfl := Option.some.inj h
          refine ⟨?_, registryStep_of_eq rfl rfl rfl⟩
          constructor
          case forth =>
            intro a process hagent
            have ha : a ≠ agentId := by
              rintro rfl
              rw [hagent] at hnone
              cases hnone
            refine ⟨process, ?_, rfl⟩
            simp only [World.setAgent, Function.update_of_ne ha, hagent]
          case back =>
            intro a process' hagent
            simp only [World.setAgent] at hagent
            by_cases ha : a = agentId
            · subst ha
              rw [Function.update_self, Option.some.injEq] at hagent
              subst hagent
              exact Or.inr rfl
            · rw [Function.update_of_ne ha] at hagent
              exact Or.inl ⟨process', hagent, id⟩
      · cases h
  | subscribe agentId =>
      refine ⟨fleetStep_of_withAgent h fun _ _ => counts_subscribe, ?_⟩
      obtain ⟨_, _, _, _, rfl⟩ := withAgent_eq_some.mp h
      exact registryStep_of_eq rfl rfl rfl
  | heartbeat agentId =>
      simp only [step, World.heartbeat] at h
      split at h
      · cases h
      next process hprocess =>
          split at h
          · cases h
          · obtain rfl := Option.some.inj h
            exact ⟨fleetStep_of_eq rfl, .sent hprocess rfl rfl rfl⟩
  | deliverHeartbeat i =>
      simp only [step] at h
      split at h
      · cases h
      next hb hget =>
          obtain rfl := Option.some.inj h
          exact ⟨fleetStep_of_eq rfl,
            .delivered (List.mem_of_getElem? hget) rfl (List.eraseIdx_sublist _ _) rfl⟩
  | dropHeartbeat i =>
      obtain rfl := Option.some.inj h
      exact ⟨fleetStep_of_eq rfl,
        .shrunk (Nat.le_refl _) (List.eraseIdx_sublist _ _) (List.Sublist.refl _)⟩
  | prune =>
      obtain rfl := Option.some.inj h
      exact ⟨fleetStep_of_eq rfl,
        .shrunk (Nat.le_refl _) (List.Sublist.refl _) List.filter_sublist⟩
  | terminate agentId received =>
      obtain rfl := Option.some.inj h
      refine ⟨?_, .shrunk (Nat.le_refl _) (List.Sublist.refl _) List.filter_sublist⟩
      cases hagent : w.agents agentId with
      | none =>
          apply fleetStep_of_eq
          simp only [World.terminate, hagent, Option.map_none]
          exact Function.update_eq_self_iff.mpr hagent.symm
      | some process =>
          have hagents : (w.terminate agentId received).agents = Function.update w.agents agentId
              (some { process with terminating := process.terminating || received }) := by
            simp only [World.terminate, hagent, Option.map_some]
          exact fleetStep_of_update hagent hagents ⟨rfl, fun hcounts => hcounts.congr rfl rfl⟩
  | stop agentId =>
      refine ⟨fleetStep_of_withAgent h fun _ _ => counts_stop, ?_⟩
      obtain ⟨_, _, _, _, rfl⟩ := withAgent_eq_some.mp h
      exact registryStep_of_eq rfl rfl rfl
  | crash agentId =>
      refine ⟨fleetStep_of_withAgent h ?_, ?_⟩
      · intro process process' hcrash
        obtain rfl := Option.some.inj hcrash
        exact ⟨rfl, Counts.crash⟩
      · obtain ⟨_, _, _, _, rfl⟩ := withAgent_eq_some.mp h
        exact registryStep_of_eq rfl rfl rfl
  | call k adapter request =>
      simp only [step] at h
      split at h
      · obtain rfl := Option.some.inj h
        exact ⟨fleetStep_of_eq rfl, registryStep_of_eq rfl rfl rfl⟩
      · cases h
  | select k =>
      obtain ⟨_, _, _, _, rfl⟩ := withCall_eq_some.mp h
      exact ⟨fleetStep_of_eq rfl, registryStep_of_eq rfl rfl rfl⟩
  | prepare k taskId put =>
      simp only [step, World.prepare] at h
      split at h
      · split at h
        · split at h
          · obtain rfl := Option.some.inj h
            exact ⟨fleetStep_of_eq rfl, registryStep_of_eq rfl rfl rfl⟩
          · obtain rfl := Option.some.inj h
            exact ⟨fleetStep_of_eq rfl, registryStep_of_eq rfl rfl rfl⟩
        · cases h
      · cases h
  | listen taskId consumer =>
      simp only [step, World.listen] at h
      split at h
      · split at h
        · obtain rfl := Option.some.inj h
          exact ⟨fleetStep_of_eq rfl, registryStep_of_eq rfl rfl rfl⟩
        · obtain rfl := Option.some.inj h
          exact ⟨fleetStep_of_eq rfl, registryStep_of_eq rfl rfl rfl⟩
      · cases h
  | publish k receivers =>
      simp only [step, World.publish] at h
      split at h
      · cases h
      · split at h
        next payload hphase hpayload =>
            obtain rfl := Option.some.inj h
            refine ⟨?_, registryStep_of_eq rfl rfl rfl⟩
            constructor
            case forth =>
              intro a process hagent
              simp only [World.setCall, World.broadcast, hagent, Option.map_some]
              split
              · exact ⟨_, rfl, (deliver_eq process payload).1⟩
              · exact ⟨process, rfl, rfl⟩
            case back =>
              intro a process' hagent
              simp only [World.setCall, World.broadcast] at hagent
              split at hagent
              · obtain ⟨process, hprocess, rfl⟩ := Option.map_eq_some_iff.mp hagent
                obtain ⟨-, hactive, hkept⟩ := deliver_eq process payload
                exact Or.inl ⟨process, hprocess, fun hcounts => hcounts.congr hactive hkept⟩
              · exact Or.inl ⟨process', hagent, id⟩
        · cases h
  | publishFails k error =>
      obtain ⟨_, _, _, _, rfl⟩ := withCall_eq_some.mp h
      exact ⟨fleetStep_of_eq rfl, registryStep_of_eq rfl rfl rfl⟩
  | take agentId =>
      refine ⟨fleetStep_of_withAgent h fun _ _ => counts_take, ?_⟩
      obtain ⟨_, _, _, _, rfl⟩ := withAgent_eq_some.mp h
      exact registryStep_of_eq rfl rfl rfl
  | execute agentId loop =>
      simp only [step, World.execute] at h
      split at h
      · refine ⟨fleetStep_of_withAgent h fun _ _ => counts_execute, ?_⟩
        obtain ⟨_, _, _, _, rfl⟩ := withAgent_eq_some.mp h
        exact registryStep_of_eq rfl rfl rfl
      · cases h
  | publishResult agentId stored =>
      simp only [step, World.publishResult] at h
      split at h
      · cases h
      next process hprocess =>
          split at h
          next r hphase =>
              obtain rfl := Option.some.inj h
              have hkept : Counts process → Counts { process with phase := .idle } :=
                fun hcounts => counts_of_zero (hcounts.publishing r hphase) (by simp)
              cases stored
              · exact ⟨fleetStep_of_update hprocess rfl ⟨rfl, hkept⟩,
                  registryStep_of_eq rfl rfl rfl⟩
              · exact ⟨fleetStep_of_update hprocess rfl ⟨rfl, hkept⟩,
                  registryStep_of_eq rfl rfl rfl⟩
          · cases h
  | receive taskId ack =>
      simp only [step, World.receive] at h
      split at h
      · split at h
        · obtain rfl := Option.some.inj h
          exact ⟨fleetStep_of_eq rfl, registryStep_of_eq rfl rfl rfl⟩
        · obtain rfl := Option.some.inj h
          exact ⟨fleetStep_of_eq rfl, registryStep_of_eq rfl rfl rfl⟩
      · cases h
  | expire taskId =>
      simp only [step, World.expire] at h
      split at h
      · split at h
        · obtain rfl := Option.some.inj h
          exact ⟨fleetStep_of_eq rfl, registryStep_of_eq rfl rfl rfl⟩
        · cases h
      · cases h
  | join k =>
      simp only [step, World.join] at h
      split at h
      · cases h
      · split at h
        · cases h
        · split at h
          · obtain ⟨_, _, rfl⟩ := Option.map_eq_some_iff.mp h
            exact ⟨fleetStep_of_eq rfl, registryStep_of_eq rfl rfl rfl⟩
          · cases h
  | abandon k =>
      obtain ⟨_, _, _, _, rfl⟩ := withCall_eq_some.mp h
      exact ⟨fleetStep_of_eq rfl, registryStep_of_eq rfl rfl rfl⟩

end Fleet

/-! ## Runs -/

/-- What the registry and the heartbeats on their way say about the agents. -/
structure RegistryKnown (w : World) : Prop where
  keys : (w.registry.map Prod.fst).Nodup
  counts : ∀ a process, w.agents a = some process → Counts process
  heartbeats : ∀ hb ∈ w.heartbeats, hb.activeTasks ≤ 1 ∧ ∃ process,
    w.agents hb.agentId = some process ∧ process.descriptor = hb.descriptor
  registered : ∀ entry ∈ w.registry, entry.2.activeTasks ≤ 1 ∧ entry.2.lastSeen ≤ w.now ∧
    ∃ process, w.agents entry.1 = some process ∧ process.descriptor = entry.2.descriptor

section Runs

variable {p : Provider} {w w' : World}

theorem registryKnown_init : RegistryKnown .init where
  keys := List.nodup_nil
  counts := fun _ _ h => nomatch h
  heartbeats := fun _ h => nomatch h
  registered := fun _ h => nomatch h

theorem mem_insertHeartbeat {registry : AgentRegistry} {now : ℕ} {hb : AgentHeartbeat}
    {entry : String × AgentRegistration} (h : entry ∈ registry.insertHeartbeat now hb) :
    entry ∈ registry ∨ entry = (hb.agentId, ⟨hb.descriptor, now, hb.activeTasks⟩) := by
  rw [AgentRegistry.insertHeartbeat] at h
  induction registry with
  | nil => exact Or.inr (List.mem_singleton.mp h)
  | cons first rest ih =>
      rw [replaceEntry] at h
      split at h
      next hkey =>
          rcases List.mem_cons.mp h with rfl | hrest
          · exact Or.inr (by rw [hkey])
          · exact Or.inl (List.mem_cons_of_mem _ hrest)
      · rcases List.mem_cons.mp h with rfl | hrest
        · exact Or.inl List.mem_cons_self
        · rcases ih hrest with hold | hnew
          · exact Or.inl (List.mem_cons_of_mem _ hold)
          · exact Or.inr hnew

theorem RegistryKnown.step (h : RegistryKnown w) (fleet : FleetStep w w')
    (registry : RegistryStep p w w') : RegistryKnown w' := by
  have hagent : ∀ a descriptor, (∃ process, w.agents a = some process ∧
      process.descriptor = descriptor) →
      ∃ process', w'.agents a = some process' ∧ process'.descriptor = descriptor := by
    rintro a descriptor ⟨process, hprocess, hdescriptor⟩
    obtain ⟨process', hprocess', hsame⟩ := fleet.forth a process hprocess
    exact ⟨process', hprocess', hsame.trans hdescriptor⟩
  have hcounts : ∀ a process', w'.agents a = some process' → Counts process' := by
    intro a process' hprocess'
    rcases fleet.back a process' hprocess' with ⟨process, hprocess, hkept⟩ | hspawned
    · exact hkept (h.counts a process hprocess)
    · rw [hspawned]
      exact counts_spawned _
  have hheartbeats : ∀ hb ∈ w.heartbeats, hb.activeTasks ≤ 1 ∧ ∃ process',
      w'.agents hb.agentId = some process' ∧ process'.descriptor = hb.descriptor :=
    fun hb hmem => ⟨(h.heartbeats hb hmem).1, hagent _ _ (h.heartbeats hb hmem).2⟩
  have hregistered : ∀ entry ∈ w.registry, w.now ≤ w'.now → entry.2.activeTasks ≤ 1 ∧
      entry.2.lastSeen ≤ w'.now ∧ ∃ process', w'.agents entry.1 = some process' ∧
        process'.descriptor = entry.2.descriptor := by
    intro entry hmem hnow
    obtain ⟨hload, hseen, hprocess⟩ := h.registered entry hmem
    exact ⟨hload, hseen.trans hnow, hagent _ _ hprocess⟩
  cases registry with
  | shrunk now heartbeats entries =>
      constructor
      case keys => exact h.keys.sublist (entries.map _)
      case counts => exact hcounts
      case heartbeats => exact fun hb hmem => hheartbeats hb (heartbeats.subset hmem)
      case registered => exact fun entry hmem => hregistered entry (entries.subset hmem) now
  | @sent agentId process agent now heartbeats entries =>
      constructor
      case keys => rw [entries]; exact h.keys
      case counts => exact hcounts
      case heartbeats =>
        intro hb hmem
        rw [heartbeats] at hmem
        rcases List.mem_append.mp hmem with hold | hnew
        · exact hheartbeats hb hold
        · obtain rfl := List.mem_singleton.mp hnew
          exact ⟨(h.counts agentId process agent).le_one, hagent _ _ ⟨process, agent, rfl⟩⟩
      case registered =>
        intro entry hmem
        rw [entries] at hmem
        exact hregistered entry hmem now.ge
  | @delivered hb mem now heartbeats entries =>
      constructor
      case keys =>
        rw [entries]
        exact nodup_keys_replaceEntry h.keys hb.agentId _
      case counts => exact hcounts
      case heartbeats => exact fun other hmem => hheartbeats other (heartbeats.subset hmem)
      case registered =>
        intro entry hmem
        rw [entries] at hmem
        rcases mem_insertHeartbeat hmem with hold | rfl
        · exact hregistered entry hold now.ge
        · exact ⟨(hheartbeats hb mem).1, now.ge, (hheartbeats hb mem).2⟩

theorem registryKnown_run {actions : List Action}
    (run : runActions (step p) .init actions = some w) : RegistryKnown w := by
  refine run_holds ?_ registryKnown_init run
  intro s action s' known hstep
  obtain ⟨fleet, registry⟩ := step_fleet hstep
  exact known.step fleet registry

end Runs

/-! ## The guarantee -/

/-- In every reachable state the selection does not depend on the order of the registry, finds
an agent if a registration suits, and picks the best one by the policy among agents that suit
by their own descriptor. -/
theorem select_agent_suits {p : Provider} {actions : List Action} {w : World}
    (run : runActions (step p) .init actions = some w) (requirements : TaskRequirements) :
    (∀ registry : AgentRegistry, w.registry.Perm registry →
        registry.selectAgent p.policy p.ttl w.now requirements =
          w.registry.selectAgent p.policy p.ttl w.now requirements) ∧
      (∀ e, w.registry.selectAgent p.policy p.ttl w.now requirements = .error e →
        e = .noAgentsAvailable requirements.maxCostTier requirements.requiredTools ∧
          ∀ entry ∈ w.registry, entry.2.suits p.ttl w.now requirements = false) ∧
      ∀ a, w.registry.selectAgent p.policy p.ttl w.now requirements = .ok a →
        IsSuitable p w requirements a ∧
          ∃ c, IsPick p.policy (w.registry.candidates p.ttl w.now requirements) c ∧
            c.agentId = a := by
  have known := registryKnown_run run
  refine ⟨fun _ => selectAgent_of_perm, fun _ => selectAgent_eq_error, ?_⟩
  intro a ha
  obtain ⟨c, hpick, rfl⟩ := selectAgent_eq_ok ha
  obtain ⟨r, hmem, hsuits, -⟩ := mem_candidates.mp hpick.mem
  obtain ⟨hlive, htier, htools⟩ := suits_iff.mp hsuits
  obtain ⟨-, hseen, process, hprocess, hdescriptor⟩ := known.registered _ hmem
  refine ⟨?_, c, hpick, rfl⟩
  constructor
  case registered => exact ⟨r, hmem, hlive, hseen⟩
  case process => exact ⟨process, hprocess, hdescriptor ▸ htier, hdescriptor ▸ htools⟩

/-- In every reachable state no registration and no heartbeat counts more than one task, so
that with a threshold of two or more the two policies select the same agent. -/
theorem spillover_never_spills {p : Provider} {actions : List Action} {w : World}
    (run : runActions (step p) .init actions = some w) {threshold : ℕ}
    (hthreshold : 2 ≤ threshold) :
    (∀ entry ∈ w.registry, entry.2.activeTasks ≤ 1) ∧
      ∀ ttl now requirements,
        w.registry.selectAgent (.costAwareSpillover threshold) ttl now requirements =
          w.registry.selectAgent .leastLoaded ttl now requirements := by
  have known := registryKnown_run run
  refine ⟨fun entry hmem => (known.registered entry hmem).1, ?_⟩
  intro ttl now requirements
  have hload : ∀ d ∈ w.registry.candidates ttl now requirements, d.activeTasks ≤ 1 := by
    intro d hd
    obtain ⟨r, hmem, -, -, hactive⟩ := mem_candidates.mp hd
    rw [hactive]
    exact (known.registered _ hmem).1
  rw [AgentRegistry.selectAgent, AgentRegistry.selectAgent,
    spillover_eq_leastLoaded hthreshold hload]

section Example

def localDescriptor : AgentDescriptor where
  model := "local"
  tools := [.shell]
  costTier := .mid

/-- An agent whose heartbeat is there. -/
def registeredRun : List Action :=
  [.start "a" localDescriptor, .heartbeat "a", .deliverHeartbeat 0, .tick 5]

def spilloverProvider : Provider where
  policy := .costAwareSpillover 10
  ttl := 30

def shellRequirements : TaskRequirements where
  maxCostTier := .high
  requiredTools := [.shell]

theorem select_agent_suits_shell : ∃ w,
    runActions (step spilloverProvider) .init registeredRun = some w ∧
      IsSuitable spilloverProvider w shellRequirements "a" := by
  obtain ⟨w, hw, hselect⟩ : ∃ w, runActions (step spilloverProvider) .init registeredRun = some w ∧
      w.registry.selectAgent spilloverProvider.policy spilloverProvider.ttl w.now
        shellRequirements = .ok "a" := ⟨_, rfl, rfl⟩
  exact ⟨w, hw, ((select_agent_suits hw shellRequirements).2.2 "a" hselect).1⟩

theorem spillover_never_spills_shell : ∃ w,
    runActions (step spilloverProvider) .init registeredRun = some w ∧
      w.registry.selectAgent (.costAwareSpillover 10) 30 w.now shellRequirements =
        w.registry.selectAgent .leastLoaded 30 w.now shellRequirements := by
  obtain ⟨w, hw⟩ : ∃ w, runActions (step spilloverProvider) .init registeredRun = some w :=
    ⟨_, rfl⟩
  exact ⟨w, hw, (spillover_never_spills hw (by decide)).2 30 w.now shellRequirements⟩

end Example

end ControlPlane.Guarantees.AgentSelection
