import ControlPlane.Lib.Entries
import ControlPlane.Source.Agent.TaoAgent
import Mathlib.Data.List.MinMax
import Mathlib.Data.List.Sort
import Mathlib.Data.Prod.Lex
import Mathlib.Data.String.Basic

/-!
# Selection of edge agents

Embeds `crates/h2ai-provisioner/src/scheduling.rs` and the registry, `select_agent` and
`ensure_agent_capacity` of `crates/h2ai-provisioner/src/nats_provider.rs`. Instants are numbers.
-/
namespace ControlPlane.Source.Agent

open Lib

/-! ## Candidates -/

/-- `CostTier`, from the cheapest. -/
inductive CostTier where
  | low
  | mid
  | high
  deriving DecidableEq, Repr

/-- The place of a tier in the derived order. -/
def CostTier.rank : CostTier → Nat
  | .low => 0
  | .mid => 1
  | .high => 2

theorem CostTier.rank_injective : Function.Injective CostTier.rank := by
  intro a b h
  cases a <;> cases b <;> first | rfl | cases h

instance : LinearOrder CostTier := LinearOrder.lift' CostTier.rank CostTier.rank_injective

structure AgentDescriptor where
  model : String
  tools : List AgentTool
  costTier : CostTier
  deriving DecidableEq, Repr

structure TaskRequirements where
  maxCostTier : CostTier
  requiredTools : List AgentTool
  deriving DecidableEq, Repr

/-- `AgentCandidate`; the identifier is its text. -/
structure AgentCandidate where
  agentId : String
  descriptor : AgentDescriptor
  activeTasks : Nat
  deriving DecidableEq, Repr

namespace AgentCandidate

def tier (c : AgentCandidate) : CostTier := c.descriptor.costTier

/-- The order of `LeastLoadedPolicy`: tier, then tasks, then identifier. -/
def rankKey (c : AgentCandidate) : CostTier ×ₗ ℕ ×ₗ String :=
  toLex (c.tier, toLex (c.activeTasks, c.agentId))

end AgentCandidate

/-! ## Policies -/

/-- `LeastLoadedPolicy::select`. -/
def leastLoadedSelect (candidates : List AgentCandidate) : Option String :=
  let sorted := candidates.insertionSort fun a b => a.rankKey ≤ b.rankKey
  sorted.head?.map AgentCandidate.agentId

/-- The least number of active tasks. -/
def minLoad (otherwise : Nat) (agents : List AgentCandidate) : Nat :=
  (agents.map AgentCandidate.activeTasks).min?.getD otherwise

/-- `min_by` on the identifier, among those with as few tasks as `load`. -/
def pickLoad (load : Nat) (agents : List AgentCandidate) : Option String :=
  ((agents.filter fun c => decide (c.activeTasks = load)).argmin AgentCandidate.agentId).map
    AgentCandidate.agentId

/-- The tiers that occur, from the cheapest. -/
def sortedTiers (candidates : List AgentCandidate) : List CostTier :=
  ((candidates.map AgentCandidate.tier).insertionSort (· ≤ ·)).dedup

def tierAgents (candidates : List AgentCandidate) (tier : CostTier) : List AgentCandidate :=
  candidates.filter fun c => decide (c.tier = tier)

/-- `u32::MAX`. -/
def maxU32 : Nat := 2 ^ 32 - 1

/-- `CostAwareSpilloverPolicy::select`. -/
def spilloverSelect (spilloverThreshold : Nat) (candidates : List AgentCandidate) :
    Option String :=
  if candidates.isEmpty then none
  else
    let headroom := (sortedTiers candidates).find? fun tier =>
      decide (minLoad maxU32 (tierAgents candidates tier) < spilloverThreshold)
    match headroom with
    | some tier =>
        let agents := tierAgents candidates tier
        pickLoad (minLoad maxU32 agents) agents
    | none => pickLoad (minLoad 0 candidates) candidates

/-- `SchedulerPolicy` of the configuration, with the threshold. -/
inductive SchedulerPolicy where
  | leastLoaded
  | costAwareSpillover (spilloverThreshold : Nat)
  deriving DecidableEq, Repr

def SchedulerPolicy.select : SchedulerPolicy → List AgentCandidate → Option String
  | .leastLoaded, candidates => leastLoadedSelect candidates
  | .costAwareSpillover threshold, candidates => spilloverSelect threshold candidates

/-! ## Registry -/

structure AgentRegistration where
  descriptor : AgentDescriptor
  lastSeen : Nat
  activeTasks : Nat
  deriving DecidableEq, Repr

structure AgentHeartbeat where
  agentId : String
  descriptor : AgentDescriptor
  activeTasks : Nat
  deriving DecidableEq, Repr

/-- The registry, in the order in which the map is walked. -/
abbrev AgentRegistry := List (String × AgentRegistration)

/-- What the subscriber does with a heartbeat. -/
def AgentRegistry.insertHeartbeat (registry : AgentRegistry) (now : Nat) (hb : AgentHeartbeat) :
    AgentRegistry :=
  replaceEntry hb.agentId
    (fun _ => { descriptor := hb.descriptor, lastSeen := now, activeTasks := hb.activeTasks })
    registry

/-- `last_seen > now - ttl`. -/
def AgentRegistration.live (ttl now : Nat) (r : AgentRegistration) : Bool :=
  decide (now < r.lastSeen + ttl)

/-- One round of the cleanup task. -/
def AgentRegistry.prune (registry : AgentRegistry) (ttl now : Nat) : AgentRegistry :=
  registry.filter fun e => e.2.live ttl now

def AgentRegistry.remove (registry : AgentRegistry) (agentId : String) : AgentRegistry :=
  registry.filter fun e => decide (e.1 ≠ agentId)

/-- What a registration has to meet. -/
def AgentRegistration.suits (ttl now : Nat) (requirements : TaskRequirements)
    (r : AgentRegistration) : Bool :=
  r.live ttl now && decide (r.descriptor.costTier ≤ requirements.maxCostTier) &&
    requirements.requiredTools.all fun t => r.descriptor.tools.contains t

def AgentRegistry.candidates (registry : AgentRegistry) (ttl now : Nat)
    (requirements : TaskRequirements) : List AgentCandidate :=
  (registry.filter fun e => e.2.suits ttl now requirements).map fun e =>
    { agentId := e.1, descriptor := e.2.descriptor, activeTasks := e.2.activeTasks }

inductive ProvisionError where
  | capacityLimitReached (agentType : String)
  | noAgentsAvailable (maxTier : CostTier) (tools : List AgentTool)
  deriving DecidableEq, Repr

/-- `select_agent`. -/
def AgentRegistry.selectAgent (registry : AgentRegistry) (policy : SchedulerPolicy)
    (ttl now : Nat) (requirements : TaskRequirements) : Except ProvisionError String :=
  match policy.select (registry.candidates ttl now requirements) with
  | some agentId => .ok agentId
  | none => .error (.noAgentsAvailable requirements.maxCostTier requirements.requiredTools)

/-- `live_matching`. -/
def AgentRegistry.liveMatching (registry : AgentRegistry) (ttl now : Nat)
    (descriptor : AgentDescriptor) : Nat :=
  (registry.filter fun e => decide (e.2.descriptor = descriptor) && e.2.live ttl now).length

/-- `ensure_agent_capacity`. -/
def AgentRegistry.ensureAgentCapacity (registry : AgentRegistry) (ttl now : Nat)
    (descriptor : AgentDescriptor) (taskLoad : Nat) : Except ProvisionError Unit :=
  let live := registry.liveMatching ttl now descriptor
  if taskLoad ≤ live then .ok ()
  else
    .error (.capacityLimitReached
      (descriptor.model ++ " (live=" ++ toString live ++ ", need=" ++ toString taskLoad ++ ")"))

/-! ## What the policies pick -/

/-- No candidate comes before it in the order of `LeastLoadedPolicy`. -/
structure IsLeast (candidates : List AgentCandidate) (c : AgentCandidate) : Prop where
  mem : c ∈ candidates
  le : ∀ d ∈ candidates, c.rankKey ≤ d.rankKey

/-- Fewest tasks, and the least identifier among those. -/
structure IsIdlest (candidates : List AgentCandidate) (c : AgentCandidate) : Prop where
  mem : c ∈ candidates
  load_le : ∀ d ∈ candidates, c.activeTasks ≤ d.activeTasks
  id_le : ∀ d ∈ candidates, d.activeTasks = c.activeTasks → c.agentId ≤ d.agentId

/-- The idlest of the cheapest tier with room, or of all where no tier has room. -/
structure IsSpillover (threshold : Nat) (candidates : List AgentCandidate)
    (c : AgentCandidate) : Prop where
  mem : c ∈ candidates
  /-- A tier with room: it is the cheapest one, and the pick is its idlest. -/
  room : (∃ d ∈ candidates, d.activeTasks < threshold) →
    c.activeTasks < threshold ∧ IsIdlest (tierAgents candidates c.tier) c ∧
      ∀ d ∈ candidates, d.activeTasks < threshold → c.tier ≤ d.tier
  full : (∀ d ∈ candidates, threshold ≤ d.activeTasks) → IsIdlest candidates c

section Policies

variable {candidates : List AgentCandidate}

theorem rankKey_le_iff {c d : AgentCandidate} :
    c.rankKey ≤ d.rankKey ↔ c.tier < d.tier ∨ c.tier = d.tier ∧
      (c.activeTasks < d.activeTasks ∨ c.activeTasks = d.activeTasks ∧ c.agentId ≤ d.agentId) := by
  simp only [AgentCandidate.rankKey, Prod.Lex.le_iff, ofLex_toLex]

theorem leastLoadedSelect_spec (h : candidates ≠ []) :
    ∃ c, IsLeast candidates c ∧ leastLoadedSelect candidates = some c.agentId := by
  have hperm := List.perm_insertionSort (fun a b : AgentCandidate => a.rankKey ≤ b.rankKey)
    candidates
  have hsorted : (candidates.insertionSort fun a b => a.rankKey ≤ b.rankKey).Pairwise
      fun a b => a.rankKey ≤ b.rankKey := List.pairwise_insertionSort _ _
  rw [leastLoadedSelect]
  generalize candidates.insertionSort (fun a b => a.rankKey ≤ b.rankKey) = sorted at hperm hsorted
  cases sorted with
  | nil => exact absurd hperm.symm.eq_nil h
  | cons c rest =>
      refine ⟨c, ⟨hperm.mem_iff.mp List.mem_cons_self, ?_⟩, rfl⟩
      intro d hd
      rcases List.mem_cons.mp (hperm.mem_iff.mpr hd) with rfl | hrest
      · exact le_refl _
      · exact (List.pairwise_cons.mp hsorted).1 d hrest

theorem minLoad_spec (otherwise : Nat) (h : candidates ≠ []) :
    (∃ c ∈ candidates, c.activeTasks = minLoad otherwise candidates) ∧
      ∀ d ∈ candidates, minLoad otherwise candidates ≤ d.activeTasks := by
  have hne : candidates.map AgentCandidate.activeTasks ≠ [] := by
    simpa only [ne_eq, List.map_eq_nil_iff] using h
  obtain ⟨least, hleast⟩ : ∃ least, (candidates.map AgentCandidate.activeTasks).min? = some least :=
    Option.isSome_iff_exists.mp (List.isSome_min?_iff.mpr hne)
  have hvalue : minLoad otherwise candidates = least := by rw [minLoad, hleast, Option.getD_some]
  obtain ⟨hmem, hle⟩ := List.min?_eq_some_iff.mp hleast
  obtain ⟨c, hc, hload⟩ := List.mem_map.mp hmem
  rw [hvalue]
  exact ⟨⟨c, hc, hload⟩, fun d hd => hle _ (List.mem_map_of_mem hd)⟩

theorem pickLoad_minLoad (otherwise : Nat) (h : candidates ≠ []) :
    ∃ c, IsIdlest candidates c ∧
      pickLoad (minLoad otherwise candidates) candidates = some c.agentId := by
  obtain ⟨⟨b, hb, hload⟩, hle⟩ := minLoad_spec otherwise h
  generalize minLoad otherwise candidates = load at hload hle
  have hbmem : b ∈ candidates.filter fun c => decide (c.activeTasks = load) :=
    List.mem_filter.mpr ⟨hb, decide_eq_true hload⟩
  rw [pickLoad]
  cases harg : (candidates.filter fun c => decide (c.activeTasks = load)).argmin
      AgentCandidate.agentId with
  | none =>
      rw [List.argmin_eq_none] at harg
      rw [harg] at hbmem
      cases hbmem
  | some c =>
      have hc := List.argmin_mem harg
      obtain ⟨hcmem, hcload⟩ := List.mem_filter.mp hc
      have hcload := of_decide_eq_true hcload
      refine ⟨c, ⟨hcmem, fun d hd => hcload ▸ hle d hd, ?_⟩, rfl⟩
      intro d hd hsame
      refine List.le_of_mem_argmin (List.mem_filter.mpr ⟨hd, ?_⟩) harg
      exact decide_eq_true (hsame.trans hcload)

theorem mem_tierAgents {tier : CostTier} {c : AgentCandidate} :
    c ∈ tierAgents candidates tier ↔ c ∈ candidates ∧ c.tier = tier := by
  simp only [tierAgents, List.mem_filter, decide_eq_true_eq]

theorem mem_sortedTiers {tier : CostTier} :
    tier ∈ sortedTiers candidates ↔ ∃ c ∈ candidates, c.tier = tier := by
  rw [sortedTiers, List.mem_dedup, List.mem_insertionSort, List.mem_map]

theorem pairwise_sortedTiers : (sortedTiers candidates).Pairwise (· ≤ ·) :=
  (List.pairwise_insertionSort (· ≤ ·) _).sublist (List.dedup_sublist _)

/-- A tier has room exactly if one of its agents has. -/
theorem minLoad_lt_iff {threshold otherwise : Nat} (h : candidates ≠ []) :
    minLoad otherwise candidates < threshold ↔ ∃ d ∈ candidates, d.activeTasks < threshold := by
  obtain ⟨⟨b, hb, hload⟩, hle⟩ := minLoad_spec otherwise h
  constructor
  · intro hlt
    exact ⟨b, hb, hload ▸ hlt⟩
  · rintro ⟨d, hd, hlt⟩
    exact (hle d hd).trans_lt hlt

theorem spilloverSelect_spec (threshold : Nat) (h : candidates ≠ []) :
    ∃ c, IsSpillover threshold candidates c ∧
      spilloverSelect threshold candidates = some c.agentId := by
  have hempty : candidates.isEmpty = false := by
    rw [← Bool.not_eq_true, List.isEmpty_iff]
    exact h
  have htier : ∀ tier ∈ sortedTiers candidates, tierAgents candidates tier ≠ [] := by
    intro tier hmem hnil
    obtain ⟨c, hc, rfl⟩ := mem_sortedTiers.mp hmem
    have := mem_tierAgents.mpr ⟨hc, rfl⟩
    rw [hnil] at this
    cases this
  simp only [spilloverSelect, hempty, Bool.false_eq_true, if_false]
  split
  next tier hfind =>
      have hmem := List.mem_of_find?_eq_some hfind
      have hfound := List.find?_some hfind
      have hroom : minLoad maxU32 (tierAgents candidates tier) < threshold := by
        simpa only [decide_eq_true_eq] using hfound
      obtain ⟨c, hidlest, hpick⟩ := pickLoad_minLoad maxU32 (htier tier hmem)
      obtain ⟨hc, rfl⟩ := mem_tierAgents.mp hidlest.mem
      obtain ⟨b, hb, hlt⟩ := (minLoad_lt_iff (htier _ hmem)).mp hroom
      have hload : c.activeTasks < threshold := (hidlest.load_le b hb).trans_lt hlt
      refine ⟨c, ⟨hc, fun _ => ⟨hload, hidlest, ?_⟩, ?_⟩, hpick⟩
      · intro d hd hdlt
        obtain ⟨_, p, q, hsplit, hbefore⟩ := List.find?_eq_some_iff_append.mp hfind
        have hdmem : d.tier ∈ sortedTiers candidates := mem_sortedTiers.mpr ⟨d, hd, rfl⟩
        have hdroom : minLoad maxU32 (tierAgents candidates d.tier) < threshold :=
          (minLoad_lt_iff (htier _ hdmem)).mpr ⟨d, mem_tierAgents.mpr ⟨hd, rfl⟩, hdlt⟩
        have hsorted : (sortedTiers candidates).Pairwise (· ≤ ·) := pairwise_sortedTiers
        rw [hsplit] at hdmem hsorted
        rcases List.mem_append.mp hdmem with hp | hq
        · have hnot := hbefore d.tier hp
          simp [hdroom] at hnot
        · rcases List.mem_cons.mp hq with heq | hq
          · exact heq.ge
          · have htail := (List.pairwise_append.mp hsorted).2.1
            exact (List.pairwise_cons.mp htail).1 d.tier hq
      · intro hfull
        exact absurd hload (Nat.not_lt.mpr (hfull c hc))
  next hfind =>
      obtain ⟨c, hidlest, hpick⟩ := pickLoad_minLoad 0 h
      refine ⟨c, ⟨hidlest.mem, ?_, fun _ => hidlest⟩, hpick⟩
      rintro ⟨d, hd, hlt⟩
      have hdmem : d.tier ∈ sortedTiers candidates := mem_sortedTiers.mpr ⟨d, hd, rfl⟩
      have hnot := List.find?_eq_none.mp hfind d.tier hdmem
      have hdroom : minLoad maxU32 (tierAgents candidates d.tier) < threshold :=
        (minLoad_lt_iff (htier _ hdmem)).mpr ⟨d, mem_tierAgents.mpr ⟨hd, rfl⟩, hlt⟩
      simp [hdroom] at hnot

end Policies

/-! ## The pick is unique -/

/-- The pick of a policy among the candidates. -/
def IsPick : SchedulerPolicy → List AgentCandidate → AgentCandidate → Prop
  | .leastLoaded => IsLeast
  | .costAwareSpillover threshold => IsSpillover threshold

section Pick

variable {candidates candidates' : List AgentCandidate} {c c' : AgentCandidate}

theorem agentId_of_rankKey (h : c.rankKey = c'.rankKey) : c.agentId = c'.agentId := by
  have hinner := congrArg (fun key => (ofLex key).2) h
  exact congrArg (fun key => (ofLex key).2) hinner

theorem IsLeast.agentId_eq (h : IsLeast candidates c) (h' : IsLeast candidates c') :
    c.agentId = c'.agentId :=
  agentId_of_rankKey (le_antisymm (h.le c' h'.mem) (h'.le c h.mem))

theorem IsIdlest.agentId_eq (h : IsIdlest candidates c) (h' : IsIdlest candidates c') :
    c.agentId = c'.agentId := by
  have hload : c.activeTasks = c'.activeTasks :=
    le_antisymm (h.load_le c' h'.mem) (h'.load_le c h.mem)
  exact le_antisymm (h.id_le c' h'.mem hload.symm) (h'.id_le c h.mem hload)

theorem IsSpillover.agentId_eq {threshold : ℕ} (h : IsSpillover threshold candidates c)
    (h' : IsSpillover threshold candidates c') : c.agentId = c'.agentId := by
  by_cases hroom : ∃ d ∈ candidates, d.activeTasks < threshold
  · obtain ⟨hload, hidlest, htier⟩ := h.room hroom
    obtain ⟨hload', hidlest', htier'⟩ := h'.room hroom
    have hsame : c.tier = c'.tier :=
      le_antisymm (htier c' h'.mem hload') (htier' c h.mem hload)
    rw [← hsame] at hidlest'
    exact hidlest.agentId_eq hidlest'
  · have hfull : ∀ d ∈ candidates, threshold ≤ d.activeTasks := by
      intro d hd
      by_contra hlt
      exact hroom ⟨d, hd, Nat.lt_of_not_le hlt⟩
    exact (h.full hfull).agentId_eq (h'.full hfull)

theorem IsLeast.of_perm (hperm : candidates.Perm candidates') (h : IsLeast candidates c) :
    IsLeast candidates' c :=
  ⟨hperm.mem_iff.mp h.mem, fun d hd => h.le d (hperm.mem_iff.mpr hd)⟩

theorem IsIdlest.of_perm (hperm : candidates.Perm candidates') (h : IsIdlest candidates c) :
    IsIdlest candidates' c :=
  ⟨hperm.mem_iff.mp h.mem, fun d hd => h.load_le d (hperm.mem_iff.mpr hd),
    fun d hd => h.id_le d (hperm.mem_iff.mpr hd)⟩

theorem IsSpillover.of_perm {threshold : ℕ} (hperm : candidates.Perm candidates')
    (h : IsSpillover threshold candidates c) : IsSpillover threshold candidates' c := by
  constructor
  case mem => exact hperm.mem_iff.mp h.mem
  case room =>
    rintro ⟨d, hd, hlt⟩
    obtain ⟨hload, hidlest, htier⟩ := h.room ⟨d, hperm.mem_iff.mpr hd, hlt⟩
    exact ⟨hload, hidlest.of_perm (hperm.filter _),
      fun d hd => htier d (hperm.mem_iff.mpr hd)⟩
  case full =>
    intro hfull
    exact (h.full fun d hd => hfull d (hperm.mem_iff.mp hd)).of_perm hperm

theorem select_spec (policy : SchedulerPolicy) (h : candidates ≠ []) :
    ∃ c, IsPick policy candidates c ∧ policy.select candidates = some c.agentId := by
  cases policy with
  | leastLoaded => exact leastLoadedSelect_spec h
  | costAwareSpillover threshold => exact spilloverSelect_spec threshold h

theorem select_nil (policy : SchedulerPolicy) : policy.select [] = none := by
  cases policy with
  | leastLoaded => rfl
  | costAwareSpillover threshold => rfl

theorem select_of_perm (policy : SchedulerPolicy) (hperm : candidates.Perm candidates') :
    policy.select candidates' = policy.select candidates := by
  by_cases hnil : candidates = []
  · subst hnil
    rw [hperm.symm.eq_nil]
  · have hnil' : candidates' ≠ [] := fun h => hnil (by rw [h] at hperm; exact hperm.eq_nil)
    obtain ⟨c, hc, hselect⟩ := select_spec policy hnil
    obtain ⟨c', hc', hselect'⟩ := select_spec policy hnil'
    rw [hselect, hselect']
    congr 1
    cases policy with
    | leastLoaded => exact hc'.agentId_eq (hc.of_perm hperm)
    | costAwareSpillover threshold => exact hc'.agentId_eq (hc.of_perm hperm)

/-- With a task at most for each agent, every tier has room. -/
theorem spillover_isLeast {threshold : ℕ} (hthreshold : 2 ≤ threshold)
    (hload : ∀ d ∈ candidates, d.activeTasks ≤ 1) (h : IsSpillover threshold candidates c) :
    IsLeast candidates c := by
  have hroom : ∀ d ∈ candidates, d.activeTasks < threshold := fun d hd =>
    (hload d hd).trans_lt hthreshold
  obtain ⟨-, hidlest, htier⟩ := h.room ⟨c, h.mem, hroom c h.mem⟩
  refine ⟨h.mem, fun d hd => rankKey_le_iff.mpr ?_⟩
  rcases (htier d hd (hroom d hd)).lt_or_eq with hlt | heq
  · exact Or.inl hlt
  · refine Or.inr ⟨heq, ?_⟩
    have hd' : d ∈ tierAgents candidates c.tier := mem_tierAgents.mpr ⟨hd, heq.symm⟩
    rcases (hidlest.load_le d hd').lt_or_eq with hless | hsame
    · exact Or.inl hless
    · exact Or.inr ⟨hsame, hidlest.id_le d hd' hsame.symm⟩

theorem spillover_eq_leastLoaded {threshold : ℕ} (hthreshold : 2 ≤ threshold)
    (hload : ∀ d ∈ candidates, d.activeTasks ≤ 1) :
    (SchedulerPolicy.costAwareSpillover threshold).select candidates =
      SchedulerPolicy.leastLoaded.select candidates := by
  by_cases hnil : candidates = []
  · subst hnil
    rfl
  · obtain ⟨c, hc, hselect⟩ := select_spec .leastLoaded hnil
    obtain ⟨c', hc', hselect'⟩ := select_spec (.costAwareSpillover threshold) hnil
    rw [hselect, hselect']
    exact congrArg some ((spillover_isLeast hthreshold hload hc').agentId_eq hc)

theorem IsPick.mem {policy : SchedulerPolicy} (h : IsPick policy candidates c) : c ∈ candidates := by
  cases policy with
  | leastLoaded => exact IsLeast.mem h
  | costAwareSpillover threshold => exact IsSpillover.mem h

end Pick

end ControlPlane.Source.Agent
