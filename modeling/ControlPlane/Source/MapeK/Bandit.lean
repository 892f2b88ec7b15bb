import ControlPlane.Lib.Entries
import ControlPlane.Lib.Numerals
import Mathlib.Algebra.Order.Field.Basic
import Mathlib.Data.List.Range

/-!
# Bandit over the number of agents

Embeds `crates/h2ai-orchestrator/src/bandit.rs` without the soft reset, which nothing calls,
the choice of the first number of agents in `MapeKController::new`
(`crates/h2ai-orchestrator/src/mape_k.rs`), and what happens to the state of a tenant: the
updates after a merge (`pipeline.rs`) and after an oracle result
(`crates/h2ai-api/src/oracle/mod.rs`), the write at the end of a task (`task_pipeline.rs`), the
load at a start (`state.rs`) and the reset of an experiment (`routes/admin.rs`). Numbers are
exact, in any ordered field; the exponential and the random draws are parameters.
-/
namespace ControlPlane.Source.MapeK.Bandit

open Lib

variable {K : Type} [Field K] [LinearOrder K]

structure BanditArm (K : Type) where
  alpha : K
  beta : K
  deriving DecidableEq, Repr

def BanditArm.mean (arm : BanditArm K) : K := arm.alpha / (arm.alpha + arm.beta)

/-- `BanditState`; the maps are lists with ascending keys. -/
structure BanditState (K : Type) where
  arms : List (Nat × BanditArm K)
  kTasks : Nat
  adapterVersionHash : Nat
  initialPrior : List (Nat × BanditArm K)
  deriving DecidableEq, Repr

/-- The `bandit_*` settings. -/
structure BanditConfig (K : Type) where
  nMaxInitial : Nat
  nMaxArms : Nat
  priorSigma : K
  priorStrength : K
  phase0K : Nat
  phase1K : Nat
  epsilon : K

/-! ## Prior -/

/-- The arm of `n` in `warm_prior`. -/
def warmArm (exp : K → K) (nMaxUsl : Nat) (priorSigma priorStrength : K) (n : Nat) :
    BanditArm K :=
  let sigmaSq := priorSigma * priorSigma
  let dist := |(n : K) - (nMaxUsl : K)|
  let weight := exp (-(dist ^ 2) / (2 * sigmaSq))
  { alpha := priorStrength * weight + 1
    beta := priorStrength * (1 - weight) + 1 }

def warmPrior (exp : K → K) (nMaxUsl : Nat) (armKeys : List Nat) (priorSigma priorStrength : K) :
    List (Nat × BanditArm K) :=
  armKeys.map fun n => (n, warmArm exp nMaxUsl priorSigma priorStrength n)

/-- `1..=n_max_usl.clamp(1, max_arms)`. -/
def armKeys (nMaxUsl maxArms : Nat) : List Nat :=
  List.range' 1 (max 1 (min nMaxUsl maxArms))

def BanditState.new (exp : K → K) (nMaxUsl adapterVersionHash maxArms : Nat)
    (priorSigma priorStrength : K) : BanditState K where
  arms := warmPrior exp nMaxUsl (armKeys nMaxUsl maxArms) priorSigma priorStrength
  kTasks := 0
  adapterVersionHash := adapterVersionHash
  initialPrior := warmPrior exp nMaxUsl (armKeys nMaxUsl maxArms) priorSigma priorStrength

/-! ## Selection -/

/-- What the random generator gives one selection: the draw of the ε-greedy phase, the
arm it explores, and a sample for every arm. -/
structure Draws (K : Type) where
  uniform : K
  index : Nat
  sample : Nat → K

/-- `BanditArm::sample`; `Beta::new` refuses parameters that are not positive. -/
def BanditArm.sample (draws : Draws K) (n : Nat) (arm : BanditArm K) : Option K :=
  if 0 < arm.alpha ∧ 0 < arm.beta then some (draws.sample n) else none

/-- `max_by` on the samples: of several maxima the last one. -/
def maxSample : List (Nat × K) → Option Nat
  | [] => none
  | first :: rest =>
      some (rest.foldl (fun best next => if next.2 < best.2 then best else next) first).1

/-- `select`; `none` where it panics. -/
def BanditState.select (cfg : BanditConfig K) (draws : Draws K) (state : BanditState K) :
    Option Nat :=
  let keys := state.arms.map Prod.fst
  let nMaxArm := keys.getLast?.getD 1
  if state.kTasks < cfg.phase0K then some nMaxArm
  else if state.kTasks < cfg.phase1K ∧ draws.uniform < cfg.epsilon then
    if keys.isEmpty then none else some (keys[draws.index % keys.length]?.getD nMaxArm)
  else
    (state.arms.mapM fun e : Nat × BanditArm K =>
      (e.2.sample draws e.1).map fun v => (e.1, v)).map fun samples =>
        (maxSample samples).getD nMaxArm

/-- `initial_n_agents` of `MapeKController::new`. -/
def initialNAgents (banditN : Option Nat) (nOptimalHint nMaxCeiling : Nat) : Nat :=
  min (max (banditN.getD nOptimalHint) 1) (max nMaxCeiling 1)

/-! ## Updates -/

/-- `f64::clamp(0.0, 1.0)`. -/
def clampUnit (score : K) : K := max 0 (min score 1)

/-- What an update adds to the two parameters of its arm. -/
def reward (tier1Passed : Option Bool) (tier3Score : Option K) : K × K :=
  match tier1Passed, tier3Score with
  | some true, _ => (1, 0)
  | some false, _ => (0, 1)
  | none, some score => (clampUnit score, 1 - clampUnit score)
  | none, none => (0, 0)

/-- `get_mut` on an arm. -/
def modifyArm (n : Nat) (f : BanditArm K → BanditArm K) (arms : List (Nat × BanditArm K)) :
    List (Nat × BanditArm K) :=
  arms.map fun e => if e.1 = n then (e.1, f e.2) else e

def BanditState.update (state : BanditState K) (nUsed : Nat) (tier1Passed : Option Bool)
    (tier3Score : Option K) : BanditState K :=
  match state.arms.lookup nUsed with
  | none => state
  | some _ =>
      let gain := reward tier1Passed tier3Score
      { state with
        arms := modifyArm nUsed
          (fun arm => { alpha := arm.alpha + gain.1, beta := arm.beta + gain.2 }) state.arms
        kTasks := state.kTasks + 1 }

/-- The mean of an arm, or zero without one. -/
def BanditState.meanOf (state : BanditState K) (n : Nat) : K :=
  ((state.arms.lookup n).map BanditArm.mean).getD 0

def BanditState.applyOptimizerHint (state : BanditState K) (currentN suggestedN : Nat) :
    BanditState K :=
  if currentN ≤ suggestedN then state
  else if 9 / 10 < state.meanOf currentN then
    { state with
      arms := modifyArm suggestedN (fun arm => { arm with alpha := arm.alpha + 1 / 2 })
        state.arms }
  else state

/-! ## The state of a tenant -/

/-- What changes the state in memory while the service runs. -/
inductive BanditEvent (K : Type) where
  /-- A merge with the confidence of its winner. -/
  | merged (nUsed : Nat) (qConfidence : K)
  | hinted (nUsed suggestedN : Nat)
  | oracleResult (nUsed : Nat) (passed : Bool)
  deriving DecidableEq, Repr

def BanditState.apply (state : BanditState K) : BanditEvent K → BanditState K
  | .merged nUsed qConfidence => state.update nUsed none (some (clampUnit qConfidence))
  | .hinted nUsed suggestedN => state.applyOptimizerHint nUsed suggestedN
  | .oracleResult nUsed passed => state.update nUsed (some passed) none

inductive TenantAction (K : Type) where
  | event (e : BanditEvent K)
  /-- `put_bandit_state` at the end of a task. -/
  | persist
  /-- `reset_experiment_state`; the stored state stays. -/
  | reset
  /-- A new process of the service, which loads the stored state. -/
  | restart
  deriving DecidableEq, Repr

/-- The state in memory and the stored one. -/
structure TenantBandit (K : Type) where
  memory : BanditState K
  stored : Option (BanditState K)

/-- A state with the configured prior. -/
def fresh (exp : K → K) (cfg : BanditConfig K) : BanditState K :=
  .new exp cfg.nMaxInitial 0 cfg.nMaxArms cfg.priorSigma cfg.priorStrength

namespace TenantBandit

def start (exp : K → K) (cfg : BanditConfig K) : TenantBandit K where
  memory := fresh exp cfg
  stored := none

def step (exp : K → K) (cfg : BanditConfig K) (t : TenantBandit K) :
    TenantAction K → TenantBandit K
  | .event e => { t with memory := t.memory.apply e }
  | .persist => { t with stored := some t.memory }
  | .reset => { t with memory := fresh exp cfg }
  | .restart => { t with memory := t.stored.getD (fresh exp cfg) }

def run (exp : K → K) (cfg : BanditConfig K) (actions : List (TenantAction K)) :
    TenantBandit K :=
  actions.foldl (step exp cfg) (start exp cfg)

end TenantBandit

end ControlPlane.Source.MapeK.Bandit
