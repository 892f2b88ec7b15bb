import ControlPlane.Source.Engine.Topology
import ControlPlane.Source.Engine.WaveHistory
import ControlPlane.Source.MapeK.FixedParts

/-!
# The quorum of the tiered exit and the size of its wave

The quorum of a resolved wave should be taken over the explorers the wave was run
with. The engine sizes the wave from the tier schedule, the probe score and the
dropout, and the topology phase may size it from the manifest or for a Precision
task; `decide` takes the number of agents of the controller's own parameters, into
which no size of a wave is ever written back.
-/
namespace ControlPlane.Guarantees.WaveQuorum

open Source.MapeK Source.Engine Source.Config Source.Constraints

/-! ## The number the decision uses -/

/-- The `n` from which `decide` computes `k_required`, when it gets to the gate. -/
def quorumSize (lib : ControllerLib) (c : MapeKController) (outcome : PipelineOutcome)
    (retryCount : Nat) : Option Nat :=
  match (c.checkInstability lib retryCount).1, outcome with
  | none, .resolved _ => if c.cfg.tieredExit.enabled then some c.currentParams.nAgents else none
  | _, _ => none

/-- The gates in front of the tiered exit change neither parameters nor settings. -/
theorem gates_keep (c : MapeKController) (merge : MergeOutput) (retryCount : Nat) :
    (c.noteBudget.noteConvergence merge retryCount).currentParams = c.currentParams ∧
      (c.noteBudget.noteConvergence merge retryCount).cfg = c.cfg := by
  have hbudget : c.noteBudget.currentParams = c.currentParams ∧ c.noteBudget.cfg = c.cfg := by
    unfold MapeKController.noteBudget
    split <;> exact ⟨rfl, rfl⟩
  rw [← hbudget.1, ← hbudget.2]
  unfold MapeKController.noteConvergence
  split <;> exact ⟨rfl, rfl⟩

/-- A decision at the gate measures the accepted proposals against the quorum of
`quorumSize`: it retries below it, or it returns and reports size and quorum. -/
theorem decide_uses_quorumSize {lib : ControllerLib} {c : MapeKController}
    {outcome : PipelineOutcome} {retryCount n : Nat} (filterRatio : ℚ)
    (h : quorumSize lib c outcome retryCount = some n) :
    ∃ merge, outcome = .resolved merge ∧
      (((c.decide lib outcome retryCount filterRatio).1 = .retry ∧
          c.kAccepted merge < c.cfg.tieredExit.kForWave n) ∨
        ∃ out, (c.decide lib outcome retryCount filterRatio).1 = .return out ∧
          (c.decide lib outcome retryCount filterRatio).2.teeEvent =
            some ⟨retryCount, n, c.cfg.tieredExit.kForWave n, c.kAccepted merge,
              c.cfg.tieredExit.acceptanceScore⟩) := by
  unfold quorumSize at h
  split at h
  · rename_i merge hstable
    split at h
    · rename_i henabled
      cases h
      refine ⟨merge, rfl, ?_⟩
      obtain ⟨c', hsettled, heq⟩ := decide_eq lib c (.resolved merge) retryCount filterRatio
      rw [hstable] at heq
      dsimp only at heq
      have hparams := hsettled.params
      have hcfg : c'.cfg = c.cfg := congrArg TaskPart.cfg hsettled.taskPart
      obtain ⟨hgateParams, hgateCfg⟩ := gates_keep c' merge retryCount
      rw [hparams] at hgateParams
      rw [hcfg] at hgateCfg
      rw [heq]
      unfold MapeKController.decideResolved
      dsimp only
      by_cases hretries :
          (c'.noteBudget.noteConvergence merge retryCount).tieredExitRetries merge retryCount = true
      · rw [if_pos hretries]
        refine .inl ⟨rfl, ?_⟩
        unfold MapeKController.tieredExitRetries at hretries
        simp only [Bool.and_eq_true, decide_eq_true_eq, MapeKController.kAccepted, hgateCfg,
          hgateParams] at hretries
        exact hretries.1.1.2
      · rw [if_neg hretries]
        refine .inr ⟨_, rfl, ?_⟩
        unfold MapeKController.acceptMerge MapeKController.noteTieredExit
        rw [hgateCfg, if_pos henabled]
        simp only [MapeKController.kAccepted, hgateCfg, hgateParams]
    · cases h
  · cases h

/-! ## The number of explorers of a wave -/

section Wave

variable (topo : TopologySettings) (input : EngineInput) (world : EngineWorld)
  (restart retryCount : Nat) (cs : MapeKController × EngineState)

/-- The explorers the topology phase provisions for a wave. -/
def waveExplorers : List ExplorerConfig :=
  topo.explorerConfigs
    { nMaxCeiling := input.init.nMaxCeiling
      nAgents := (waveParams input.cfg cs.1 retryCount).nAgents
      tauSpreadFactor := cs.1.tauSpreadFactor
      tauReductionFactor := cs.1.tauReductionFactor }

/-- At the wave's decision the quorum is taken over the explorers of the wave, and
they are no more than the ceiling allows. -/
def QuorumOfWave : Prop :=
  ∀ n, quorumSize input.lib (decisionPoint input world restart retryCount cs).1
      (waveRun input world restart retryCount cs).result.outcome retryCount = some n →
    n = (waveExplorers topo input retryCount cs).length ∧
      (waveExplorers topo input retryCount cs).length ≤ max 1 input.init.nMaxCeiling

/-- The wave's decision gets to the tiered exit. -/
def ReachesGate : Prop :=
  (quorumSize input.lib (decisionPoint input world restart retryCount cs).1
    (waveRun input world restart retryCount cs).result.outcome retryCount).isSome = true

/-- The source of the wave's size agrees with the controller's parameters before the
wave: the manifest names as many roles, a Precision task has as many slots, or the
tier of the wave is that size after dropout. -/
def SizedAsController : Prop :=
  if topo.roles ≠ [] then topo.roles.length = cs.1.currentParams.nAgents
  else if topo.precisionActive = true then
    min (max input.init.nMaxCeiling 3) topo.precisionModeMaxSlots = cs.1.currentParams.nAgents
  else max (waveAgents input.cfg cs.1 retryCount) 1 = cs.1.currentParams.nAgents

theorem sizedAsController_iff :
    SizedAsController topo input retryCount cs ↔
      (waveExplorers topo input retryCount cs).length = cs.1.currentParams.nAgents := by
  unfold SizedAsController waveExplorers
  rw [explorerConfigs_length]
  cases hroles : topo.roles with
  | cons role rest => simp
  | nil =>
      unfold TopologySettings.slotCount
      cases hprecision : topo.precisionActive with
      | true => simp
      | false => simp [waveParams]

/-! ## The controller between the start of a wave and its decision -/

theorem decisionPoint_params :
    (decisionPoint input world restart retryCount cs).1.currentParams = cs.1.currentParams := by
  have hobserved : (observedWave input world restart retryCount cs).currentParams =
      cs.1.currentParams := by
    rw [← observe_params cs.1 (waveRun input world restart retryCount cs).result.events retryCount]
    unfold observedWave oomGuard
    dsimp only
    split <;> rfl
  rw [← hobserved]
  unfold decisionPoint waveWindow
  dsimp only
  split
  · split
    · split
      · exact injectWaveContinue_params _ _ _
      · rfl
    · rfl
  · rfl

theorem quorumSize_decisionPoint {n : Nat}
    (h : quorumSize input.lib (decisionPoint input world restart retryCount cs).1
      (waveRun input world restart retryCount cs).result.outcome retryCount = some n) :
    n = cs.1.currentParams.nAgents := by
  unfold quorumSize at h
  split at h
  · split at h
    · cases h
      rw [decisionPoint_params]
    · cases h
  · cases h

end Wave

/-- In every wave of every run the parameters respect the ceiling. -/
theorem waveStart_nAgents {input : EngineInput} {world : EngineWorld} {restart retryCount : Nat}
    {cs : MapeKController × EngineState} (h : WaveStart input world restart retryCount cs) :
    cs.1.currentParams.nAgents ≤ max 1 input.init.nMaxCeiling := by
  obtain ⟨ops, hops⟩ := waveStart_held h
  have hgrows := (replay_grows input.lib
    (MapeKController.new input.cfg input.init cs.2.constraintCorpus) ops).agents
  rw [← hops] at hgrows
  have hnew : (MapeKController.new input.cfg input.init
      cs.2.constraintCorpus).currentParams.nAgents =
        min (max input.init.initialNAgents 1) (max input.init.nMaxCeiling 1) := rfl
  have hceiling : (MapeKController.new input.cfg input.init
      cs.2.constraintCorpus).nMaxCeiling = input.init.nMaxCeiling := rfl
  rw [hnew, hceiling] at hgrows
  omega

/-- For every wave of every run: the quorum is taken over the explorers of the wave,
within the ceiling, exactly when the decision does not get to the gate or the size of
the wave agrees with the parameters the controller held before it. -/
theorem quorum_of_wave_iff (topo : TopologySettings) (input : EngineInput) (world : EngineWorld)
    (restart retryCount : Nat) (cs : MapeKController × EngineState)
    (start : WaveStart input world restart retryCount cs) :
    QuorumOfWave topo input world restart retryCount cs ↔
      (ReachesGate input world restart retryCount cs →
        SizedAsController topo input retryCount cs) := by
  have hbound := waveStart_nAgents start
  rw [sizedAsController_iff]
  unfold QuorumOfWave ReachesGate
  rw [Option.isSome_iff_exists]
  constructor
  · rintro quorum ⟨n, hn⟩
    rw [← (quorum n hn).1, quorumSize_decisionPoint input world restart retryCount cs hn]
  · intro sized n hn
    have hlength := sized ⟨n, hn⟩
    rw [quorumSize_decisionPoint input world restart retryCount cs hn, hlength]
    exact ⟨rfl, hbound⟩

/-! ## A first wave of one explorer -/

section Example

def bareManifest : TopologySettings :=
  { roles := []
    tauMin := none
    tauMax := none
    shadowMode := true
    precisionQuadrant := false
    precisionModeMaxSlots := 3
    calibrationTauSpread := (2 / 10, 9 / 10)
    bftThreshold := 85 / 100
    krumThreshold := 95 / 100
    krumFaultTolerance := 0 }

def tieredInput : EngineInput :=
  { plainInput with cfg := { H2AIConfig.reference with tieredExit := ⟨true, 1, 5, 1 / 2, 85 / 100⟩ } }

def resolvedWorld : EngineWorld := plainWorld (plainWave (plainPhases "use a jwt"))

def tieredStart : MapeKController × EngineState :=
  (freshController tieredInput [], initialState tieredInput resolvedWorld)

theorem tieredStart_quorum_iff :
    WaveStart tieredInput resolvedWorld 0 0 tieredStart ∧
      (QuorumOfWave bareManifest tieredInput resolvedWorld 0 0 tieredStart ↔
        (ReachesGate tieredInput resolvedWorld 0 0 tieredStart →
          SizedAsController bareManifest tieredInput 0 tieredStart)) := by
  have start : WaveStart tieredInput resolvedWorld 0 0 tieredStart :=
    ⟨initialState tieredInput resolvedWorld, rfl, Nat.zero_le _, rfl⟩
  exact ⟨start, quorum_of_wave_iff bareManifest tieredInput resolvedWorld 0 0 tieredStart start⟩

/-- The first tier has one explorer; the quorum is taken over the three agents of the
controller and asks for two accepted proposals. -/
theorem first_tier_quorum_over_three :
    WaveStart tieredInput resolvedWorld 0 0 tieredStart ∧
      (waveExplorers bareManifest tieredInput 0 tieredStart).length = 1 ∧
      quorumSize tieredInput.lib (decisionPoint tieredInput resolvedWorld 0 0 tieredStart).1
        (waveRun tieredInput resolvedWorld 0 0 tieredStart).result.outcome 0 = some 3 ∧
      tieredInput.cfg.tieredExit.kForWave 3 = 2 ∧
      (waveDecision tieredInput resolvedWorld 0 0 tieredStart).1 = .retry ∧
      ¬ QuorumOfWave bareManifest tieredInput resolvedWorld 0 0 tieredStart := by
  have hlength : (waveExplorers bareManifest tieredInput 0 tieredStart).length = 1 := by
    decide +kernel
  have hsize : quorumSize tieredInput.lib
      (decisionPoint tieredInput resolvedWorld 0 0 tieredStart).1
      (waveRun tieredInput resolvedWorld 0 0 tieredStart).result.outcome 0 = some 3 := by
    decide +kernel
  refine ⟨⟨initialState tieredInput resolvedWorld, rfl, Nat.zero_le _, rfl⟩, hlength, hsize,
    ?_, ?_, ?_⟩
  · decide +kernel
  · decide +kernel
  · intro quorum
    have := (quorum 3 hsize).1
    omega

end Example

end ControlPlane.Guarantees.WaveQuorum
