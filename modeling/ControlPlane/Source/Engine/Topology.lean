import ControlPlane.Source.Engine.Pipeline

/-!
# Topology provisioning

Embeds `phases/topology.rs` of `crates/h2ai-orchestrator` and what
`TopologyPlanner::provision` makes of the role specs: how many explorers a wave is
run with, at which temperatures, and the quorum guard of the Krum merge. The
planner's choice of a topology kind has no part in it.
-/
namespace ControlPlane.Source.Engine

open MapeK

inductive AgentRole where
  | coordinator
  | executor
  | evaluator
  | synthesizer
  | custom (name : String) (tau roleErrorCost : ℚ)
  deriving DecidableEq, Repr

namespace AgentRole

def defaultTau : AgentRole → ℚ
  | coordinator => 5 / 100
  | executor => 40 / 100
  | evaluator => 10 / 100
  | synthesizer => 80 / 100
  | custom _ tau _ => tau

def defaultRoleErrorCost : AgentRole → ℚ
  | coordinator | synthesizer => 1 / 10
  | executor => 5 / 10
  | evaluator => 9 / 10
  | custom _ _ cost => cost

end AgentRole

structure RoleSpec where
  agentId : String
  role : AgentRole
  tau : Option ℚ
  roleErrorCost : Option ℚ
  deriving DecidableEq, Repr

structure ExplorerConfig where
  tau : ℚ
  role : AgentRole
  deriving DecidableEq, Repr

/-- What the phase reads of the manifest and of the configuration. -/
structure TopologySettings where
  /-- `manifest.explorers.roles`. -/
  roles : List RoleSpec
  tauMin : Option ℚ
  tauMax : Option ℚ
  /-- `task_complexity.shadow_mode`. -/
  shadowMode : Bool
  /-- The assessed quadrant is `Precision`. -/
  precisionQuadrant : Bool
  precisionModeMaxSlots : Nat
  calibrationTauSpread : ℚ × ℚ
  bftThreshold : ℚ
  krumThreshold : ℚ
  krumFaultTolerance : Nat

/-- What the phase reads of the pipeline parameters. -/
structure TopologyParams where
  nMaxCeiling : Nat
  nAgents : Nat
  tauSpreadFactor : ℚ
  tauReductionFactor : ℚ

def clampTau (tau : ℚ) : ℚ := min (max tau (5 / 100)) (95 / 100)

namespace TopologySettings

def precisionActive (t : TopologySettings) : Bool := !t.shadowMode && t.precisionQuadrant

/-- The slots of a manifest without roles. -/
def slotCount (t : TopologySettings) (p : TopologyParams) : Nat :=
  if t.precisionActive then min (max p.nMaxCeiling 3) t.precisionModeMaxSlots
  else max p.nAgents 1

/-- Ends of the temperature range before it is spread. -/
def tauRange (t : TopologySettings) : ℚ × ℚ :=
  if t.precisionActive then (clampTau t.calibrationTauSpread.1, clampTau t.calibrationTauSpread.2)
  else (t.tauMin.getD (2 / 10), t.tauMax.getD (9 / 10))

/-- The temperature of slot `i`: the spread range in equal steps. -/
def slotTau (t : TopologySettings) (p : TopologyParams) (i : Nat) : ℚ :=
  let center := (t.tauRange.2 + t.tauRange.1) / 2
  let half := min ((t.tauRange.2 - t.tauRange.1) / 2 * p.tauSpreadFactor) (min center (1 - center))
  let count := t.slotCount p
  let step := if 1 < count then (center + half - (center - half)) / ((count : ℚ) - 1) else 0
  clampTau ((center - half + step * i) * p.tauReductionFactor)

def slotRole (t : TopologySettings) (p : TopologyParams) (i : Nat) : RoleSpec :=
  { agentId := "exp_" ++ (Char.ofNat (65 + i % 26)).toString
    role := .executor
    tau := some (t.slotTau p i)
    roleErrorCost := none }

/-- `role_specs`: the manifest's roles, else generated slots. -/
def roleSpecs (t : TopologySettings) (p : TopologyParams) : List RoleSpec :=
  if t.roles.isEmpty then (List.range (t.slotCount p)).map (t.slotRole p) else t.roles

/-- `explorer_configs` of the planner, one for each role. -/
def explorerConfigs (t : TopologySettings) (p : TopologyParams) : List ExplorerConfig :=
  (t.roleSpecs p).map fun rs => ⟨rs.tau.getD rs.role.defaultTau, rs.role⟩

def roleErrorCosts (t : TopologySettings) (p : TopologyParams) : List ℚ :=
  (t.roleSpecs p).map fun rs => rs.roleErrorCost.getD rs.role.defaultRoleErrorCost

end TopologySettings

inductive MergeStrategy where
  | scoreOrdered
  | consensusMedian
  | outlierResistant (f : Nat)
  deriving DecidableEq, Repr

/-- `from_role_costs`; without a role no cost is above a threshold. -/
def mergeStrategyOf (costs : List ℚ) (bftThreshold krumThreshold : ℚ) (krumF : Nat) :
    MergeStrategy :=
  if 0 < krumF ∧ costs.any (fun c => decide (krumThreshold < c)) = true then .outlierResistant krumF
  else if costs.any fun c => decide (bftThreshold < c) then .consensusMedian
  else .scoreOrdered

def minKrumQuorum (f : Nat) : Nat := 2 * f + 3

/-- `phases::topology::run`: the explorers of the wave, or the quorum error. -/
def topologyRun (t : TopologySettings) (p : TopologyParams) : StepResult (List ExplorerConfig) :=
  let explorers := t.explorerConfigs p
  match mergeStrategyOf (t.roleErrorCosts p) t.bftThreshold t.krumThreshold
      t.krumFaultTolerance with
  | .outlierResistant f =>
      if explorers.length < minKrumQuorum f then
        .fatal (.insufficientQuorum explorers.length f (minKrumQuorum f))
      else .done explorers
  | _ => .done explorers

/-! ## The number of explorers -/

/-- A manifest with roles fixes the number; without roles the slots do. -/
theorem explorerConfigs_length (t : TopologySettings) (p : TopologyParams) :
    (t.explorerConfigs p).length =
      if t.roles = [] then t.slotCount p else t.roles.length := by
  unfold TopologySettings.explorerConfigs TopologySettings.roleSpecs
  rw [List.length_map]
  cases t.roles with
  | nil => simp
  | cons role rest => simp

end ControlPlane.Source.Engine

/-!
## The ids of provisioned explorers

Embeds `ExplorerId::new` (`crates/h2ai-types/src/identity.rs`) and the explorers that
`TopologyPlanner::provision` (`crates/h2ai-autonomic/src/planner.rs`) makes of the role
specs. An id is a random UUID and used through its `Display` text only. The ids that a
process draws are numbered in their order.
-/
namespace ControlPlane.Source.Engine

open MapeK

/-- `ExplorerId::new`: version 4 UUIDs, none of which is drawn twice. -/
structure ExplorerIds where
  new : Nat → String
  distinct : Function.Injective new

/-- Ids that differ in their lengths. -/
def plainIds : ExplorerIds :=
  { new := fun n => String.ofList (List.replicate (n + 1) 'a')
    distinct := by
      intro m n h
      have hlength := congrArg (fun s : String => s.toList.length) h
      simpa using hlength }

/-- `ExplorerConfig` with its id. -/
structure ProvisionedExplorer where
  explorerId : String
  config : ExplorerConfig
  deriving DecidableEq, Repr

/-- `explorer_configs` of `provision`: every role spec gets an explorer with a new id. -/
def provision (ids : ExplorerIds) (drawn : Nat) (roleSpecs : List RoleSpec) :
    List ProvisionedExplorer :=
  roleSpecs.mapIdx fun i rs => ⟨ids.new (drawn + i), ⟨rs.tau.getD rs.role.defaultTau, rs.role⟩⟩

/-- The explorers of a wave are the slots of its topology with ids. -/
theorem provision_configs (ids : ExplorerIds) (drawn : Nat) (t : TopologySettings)
    (p : TopologyParams) :
    (provision ids drawn (t.roleSpecs p)).map (·.config) = t.explorerConfigs p := by
  unfold provision TopologySettings.explorerConfigs
  apply List.ext_getElem?
  intro i
  rw [List.getElem?_map, List.getElem?_mapIdx, List.getElem?_map, Option.map_map]
  rfl

theorem provision_length (ids : ExplorerIds) (drawn : Nat) (roleSpecs : List RoleSpec) :
    (provision ids drawn roleSpecs).length = roleSpecs.length := List.length_mapIdx

/-- A provisioned id is one of the next ones to be drawn. -/
theorem exists_new_of_provision {ids : ExplorerIds} {drawn : Nat} {roleSpecs : List RoleSpec}
    {e : ProvisionedExplorer} (h : e ∈ provision ids drawn roleSpecs) :
    ∃ n, drawn ≤ n ∧ n < drawn + roleSpecs.length ∧ e.explorerId = ids.new n := by
  obtain ⟨i, hi, rfl⟩ := List.mem_mapIdx.mp h
  exact ⟨drawn + i, by omega, by omega, rfl⟩

/-! ## Waves -/

/-- A wave and what was scored of it. -/
structure ScoredWave where
  roleSpecs : List RoleSpec
  adapterRotationOffset : Nat
  /-- The ids that the process drew since the wave before. -/
  drawnBetween : Nat
  /-- The scored proposals by their slots. -/
  scored : List (Fin roleSpecs.length × ℚ × Bool)
  once : (scored.map Prod.fst).Nodup

namespace ScoredWave

def firstId (drawn : Nat) (w : ScoredWave) : Nat := drawn + w.drawnBetween

/-- The number of ids that are drawn by the end of the wave. -/
def drawnAfter (drawn : Nat) (w : ScoredWave) : Nat := w.firstId drawn + w.roleSpecs.length

def explorers (ids : ExplorerIds) (drawn : Nat) (w : ScoredWave) : List ProvisionedExplorer :=
  provision ids (w.firstId drawn) w.roleSpecs

/-- The verification event of a scored proposal. -/
def event (ids : ExplorerIds) (drawn : Nat) (w : ScoredWave)
    (e : Fin w.roleSpecs.length × ℚ × Bool) : VerificationScoredEvent :=
  let explorer := (w.explorers ids drawn).get (e.1.cast (provision_length ..).symm)
  ⟨explorer.explorerId, e.2.1, e.2.2⟩

def events (ids : ExplorerIds) (drawn : Nat) (w : ScoredWave) : List VerificationScoredEvent :=
  w.scored.map (w.event ids drawn)

theorem event_id (ids : ExplorerIds) (drawn : Nat) (w : ScoredWave)
    (e : Fin w.roleSpecs.length × ℚ × Bool) :
    (w.event ids drawn e).explorerId = ids.new (w.firstId drawn + e.1) := by
  simp only [event, explorers, provision, List.get_eq_getElem, List.getElem_mapIdx]
  rfl

theorem drawn_le_drawnAfter (drawn : Nat) (w : ScoredWave) : drawn ≤ w.drawnAfter drawn := by
  unfold drawnAfter firstId
  omega

/-- What is scored in a wave has an id that the wave drew. -/
theorem exists_new_of_event {ids : ExplorerIds} {drawn : Nat} (w : ScoredWave) {id : String}
    (h : id ∈ (w.events ids drawn).map (·.explorerId)) :
    ∃ n, drawn ≤ n ∧ n < w.drawnAfter drawn ∧ id = ids.new n := by
  obtain ⟨ev, hev, rfl⟩ := List.mem_map.mp h
  obtain ⟨e, _, rfl⟩ := List.mem_map.mp hev
  refine ⟨w.firstId drawn + e.1, ?_, ?_, event_id ids drawn w e⟩
  · unfold firstId
    omega
  · unfold drawnAfter
    have hslot := e.1.isLt
    omega

/-- No explorer is scored twice in a wave. -/
theorem events_nodup (ids : ExplorerIds) (drawn : Nat) (w : ScoredWave) :
    ((w.events ids drawn).map (·.explorerId)).Nodup := by
  have hslots : (w.events ids drawn).map (·.explorerId) =
      (w.scored.map Prod.fst).map fun i : Fin w.roleSpecs.length =>
        ids.new (w.firstId drawn + i) := by
    rw [events, List.map_map, List.map_map]
    exact List.map_congr_left fun e _ => event_id ids drawn w e
  rw [hslots]
  apply w.once.map
  intro i j hij
  have hslot : w.firstId drawn + (i : Nat) = w.firstId drawn + (j : Nat) := ids.distinct hij
  omega

end ScoredWave

def plainRole : RoleSpec := ⟨"exp_A", .executor, none, none⟩

/-- Two executors that score the same. -/
def evenWave : ScoredWave :=
  ⟨[plainRole, plainRole], 0, 0, [(0, 8 / 10, true), (1, 8 / 10, true)], by decide⟩

end ControlPlane.Source.Engine
