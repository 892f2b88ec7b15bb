import ControlPlane.Lib.Numerals
import ControlPlane.Source.Tasks.RhoEma
import Mathlib.Data.Sym.Card

/-!
# The correlation of two adapters

The pairs of the state are meant to be pairs of adapters, and are pairs of the explorer ids
that a wave draws anew: no entry is ever updated twice. So the mean of a pair converges
only as far as one update goes, and every two scored proposals leave an entry behind.
-/
namespace ControlPlane.Guarantees.ErrorCorrelation

open Lib Source.Engine Source.Tasks

variable {pool : Nat} [NeZero pool]

/-- The updates that two adapters have in the tasks. -/
def updatesOf (ids : ExplorerIds) (tasks : List ScoredTask) (pair : Sym2 (Fin pool)) :
    List (PairUpdate pool) :=
  (streamUpdates pool ids 0 tasks).filter fun u => decide (u.adapters = pair)

/-- The pair takes part in the tasks, and always with the same product. -/
def ConstantProduct (ids : ExplorerIds) (tasks : List ScoredTask) (pair : Sym2 (Fin pool))
    (x : ℚ) : Prop :=
  updatesOf ids tasks pair ≠ [] ∧ ∀ u ∈ updatesOf ids tasks pair, u.product = x

/-- The state that the tasks leave has one entry for a pair, which comes closer to the
product with every update, and no more entries than there are pairs of adapters. -/
structure Converges (pool : Nat) [NeZero pool] (ids : ExplorerIds) (tasks : List ScoredTask) :
    Prop where
  entry : ∀ (pair : Sym2 (Fin pool)) (x : ℚ), ConstantProduct ids tasks pair x →
    ∃ key, (∀ u ∈ updatesOf ids tasks pair, u.key = key) ∧
      (rhoRun pool ids 0 .empty tasks).ema.lookup key =
        some (x + (1 - 1 / 10) ^ (updatesOf ids tasks pair).length * (45 / 100 - x))
  bounded : (rhoRun pool ids 0 .empty tasks).ema.keys.length ≤ Fintype.card (Sym2 (Fin pool))

/-- Adapters with a constant product are scored together once, and over all tasks fewer pairs
of proposals are scored than there are pairs of adapters. -/
structure PairsMeetOnce (pool : Nat) [NeZero pool] (ids : ExplorerIds)
    (tasks : List ScoredTask) : Prop where
  once : ∀ (pair : Sym2 (Fin pool)) (x : ℚ), ConstantProduct ids tasks pair x →
    (updatesOf ids tasks pair).length = 1
  few : (tasks.map fun task => task.scoredCount.choose 2).sum ≤ Fintype.card (Sym2 (Fin pool))

section Stream

variable {ids : ExplorerIds} {tasks : List ScoredTask}

theorem rhoRun_start : (rhoRun pool ids 0 .empty tasks).ema =
    upsertAll rhoPrior (leaky (9 / 10)) ∅
      ((streamUpdates pool ids 0 tasks).map PairUpdate.entry) :=
  rhoRun_ema ids tasks 0 .empty

theorem entry_keys_nodup :
    (((streamUpdates pool ids 0 tasks).map PairUpdate.entry).map Prod.fst).Nodup := by
  rw [List.map_map]
  exact streamUpdates_nodup ids tasks 0

/-- Every update leaves an entry of its own. -/
theorem keys_length : (rhoRun pool ids 0 .empty tasks).ema.keys.length =
    (tasks.map fun task => task.scoredCount.choose 2).sum := by
  rw [rhoRun_start, card_upsertAll, List.toFinset_card_of_nodup entry_keys_nodup,
    List.length_map, List.length_map, streamUpdates_length]

/-- The entry of an update is one step away from the prior. -/
theorem lookup_key {u : PairUpdate pool} (h : u ∈ streamUpdates pool ids 0 tasks) :
    (rhoRun pool ids 0 .empty tasks).ema.lookup u.key =
      some (u.product + (9 / 10) ^ 1 * (rhoPrior - u.product)) := by
  have hentry : u.entry ∈ (streamUpdates pool ids 0 tasks).map PairUpdate.entry :=
    List.mem_map_of_mem h
  have hvalues := valuesAt_of_nodup entry_keys_nodup hentry
  have hconstant : ∀ v ∈ [u.entry.2], v = u.product := by
    intro v hv
    exact List.mem_singleton.mp hv
  change (rhoRun pool ids 0 .empty tasks).ema.lookup u.entry.1 = _
  rw [rhoRun_start, lookup_upsertAll (List.mem_map_of_mem hentry), hvalues,
    foldl_leaky_const hconstant]
  rfl

/-- Updates under one key are one update. -/
theorem length_le_one {pair : Sym2 (Fin pool)} {key : String × String}
    (h : ∀ u ∈ updatesOf ids tasks pair, u.key = key) :
    (updatesOf ids tasks pair).length ≤ 1 := by
  have hnodup : ((updatesOf ids tasks pair).map (·.key)).Nodup :=
    (streamUpdates_nodup ids tasks 0).sublist (List.filter_sublist.map _)
  have hconstant : (updatesOf ids tasks pair).map (·.key) =
      List.replicate (updatesOf ids tasks pair).length key := by
    rw [List.eq_replicate_iff, List.length_map]
    refine ⟨rfl, fun k hk => ?_⟩
    obtain ⟨u, hu, rfl⟩ := List.mem_map.mp hk
    exact h u hu
  rw [hconstant] at hnodup
  exact List.nodup_replicate.mp hnodup

end Stream

/-- The state converges exactly if nothing has to accumulate. -/
theorem correlation_converges_iff (pool : Nat) [NeZero pool] (ids : ExplorerIds)
    (tasks : List ScoredTask) : Converges pool ids tasks ↔ PairsMeetOnce pool ids tasks := by
  constructor
  · intro h
    refine ⟨fun pair x hpair => ?_, keys_length.symm.trans_le h.bounded⟩
    obtain ⟨key, hkey, _⟩ := h.entry pair x hpair
    have hupper := length_le_one hkey
    have hlower := List.length_pos_iff.mpr hpair.1
    omega
  · intro h
    refine ⟨fun pair x hpair => ?_, keys_length.trans_le h.few⟩
    obtain ⟨u, hu⟩ := List.length_eq_one_iff.mp (h.once pair x hpair)
    have hmem : u ∈ updatesOf ids tasks pair := by
      rw [hu]
      exact List.mem_singleton_self u
    refine ⟨u.key, fun v hv => ?_, ?_⟩
    · rw [hu, List.mem_singleton] at hv
      rw [hv]
    · rw [lookup_key (List.mem_of_mem_filter hmem), hpair.2 u hmem, h.once pair x hpair]
      norm_num [rhoPrior]

/-! ## Two adapters in one task and in two -/

def evenTask : ScoredTask := ⟨[evenWave], none⟩

theorem evenTask_updates : streamUpdates 2 plainIds 0 [evenTask] =
    [⟨s(0, 1), ("a", "aa"), 1 / 21⟩] := by
  decide +kernel

/-- One task is as far as the mean gets. -/
theorem one_task_converges : Converges 2 plainIds [evenTask] := by
  apply (correlation_converges_iff 2 plainIds [evenTask]).mpr
  refine ⟨fun pair x hpair => ?_, by decide +kernel⟩
  have hupper : (updatesOf plainIds [evenTask] pair).length ≤ 1 := by
    refine (List.length_filter_le _ _).trans ?_
    rw [evenTask_updates]
    exact le_rfl
  have hlower := List.length_pos_iff.mpr hpair.1
  omega

/-- In two tasks the same adapters have two entries. -/
theorem two_tasks_two_entries : ¬ Converges 2 plainIds [evenTask, evenTask] := by
  intro h
  have hpair : ConstantProduct plainIds [evenTask, evenTask] (s(0, 1) : Sym2 (Fin 2)) (1 / 21) := by
    unfold ConstantProduct
    decide +kernel
  obtain ⟨key, hkey, _⟩ := h.entry _ _ hpair
  have hfirst := hkey ⟨s(0, 1), ("a", "aa"), 1 / 21⟩ (by decide +kernel)
  have hsecond := hkey ⟨s(0, 1), ("aaa", "aaaa"), 1 / 21⟩ (by decide +kernel)
  rw [← hsecond] at hfirst
  revert hfirst
  decide

end ControlPlane.Guarantees.ErrorCorrelation
