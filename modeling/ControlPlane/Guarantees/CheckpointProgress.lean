import ControlPlane.Source.Engine.ReasoningMemory

/-!
# Progress of the reasoning checkpoint

The checkpoint of a task should only move forward: no write has a lower phase rank
than the one before, and no wave is completed twice. The checkpoint outlives a spec
repair while the waves of the next iteration are numbered from zero again, so the
first wave behind a repair breaks both.
-/
namespace ControlPlane.Guarantees.CheckpointProgress

open Source Source.MapeK Source.Engine

/-- What was written has non-decreasing ranks, and the checkpoint names every wave
once. -/
structure MovesForward (m : ReasoningMemory) : Prop where
  ranks : (putRanks m).Pairwise (· ≤ ·)
  waves : ∀ cp, m.held = some cp → cp.waveIndices.Nodup

/-- No wave behind a spec repair is recorded, and, when the checkpoint is written at
all, the wave numbers stay below the one whose rank wraps. -/
def StaysInFirstIteration (nats : Bool) (waves : List (Nat × Nat)) : Prop :=
  (∀ w ∈ waves, w.1 = 0) ∧ (nats = true → ∀ w ∈ waves, w.2 < 2 ^ 32 - 2)

section Point

variable {input : EngineInput} {world : EngineWorld} {task : ReasoningTask}
  {waves : List (Nat × Nat)} {m : ReasoningMemory} {cp : TaskReasoningCheckpoint}

/-- Waves that are numbered once belong to the first iteration. -/
theorem first_iteration_of_nodup (point : MemoryPoint input world task waves m)
    (once : (waves.map Prod.snd).Nodup) :
    ∃ n, waves = (List.range n).map fun i => (0, i) := by
  rcases point.waves_eq with hnil | ⟨restart, retryCount, s₀, hiter, hwaves⟩
  · exact ⟨0, hnil⟩
  · cases restart with
    | zero =>
        have hstart : s₀.waves = [] := by
          rw [iterationStart_zero hiter]
          rfl
        exact ⟨retryCount + 1, by rw [hwaves, hstart, List.nil_append]⟩
    | succ restart =>
        -- wave 0 is in front of the repair and behind it
        rw [hwaves, List.map_append, List.nodup_append] at once
        have hbefore : 0 ∈ s₀.waves.map Prod.snd :=
          List.mem_map.mpr ⟨(restart, 0), iterationStart_first hiter, rfl⟩
        have hbehind : 0 ∈ ((List.range (retryCount + 1)).map fun i =>
            (restart + 1, i)).map Prod.snd := by
          simp
        exact absurd rfl (once.2.2 0 hbefore 0 hbehind)

theorem first_iteration_of_zero (point : MemoryPoint input world task waves m)
    (first : ∀ w ∈ waves, w.1 = 0) : ∃ n, waves = (List.range n).map fun i => (0, i) := by
  rcases point.waves_eq with hnil | ⟨restart, retryCount, s₀, hiter, hwaves⟩
  · exact ⟨0, hnil⟩
  · have hzero : restart = 0 := first (restart, 0) (by simp [hwaves])
    subst hzero
    have hstart : s₀.waves = [] := by
      rw [iterationStart_zero hiter]
      rfl
    exact ⟨retryCount + 1, by rw [hwaves, hstart, List.nil_append]⟩

theorem numbers_of_first (n : Nat) :
    (((List.range n).map fun i => ((0 : Nat), i)).map Prod.snd) = List.range n := by
  rw [List.map_map]
  exact List.map_id _

/-- The rank of wave `2 ^ 32 - 2` wraps to zero, below that of the wave before. -/
theorem below_wrap_of_sorted {n : Nat} (sorted : ((List.range n).map waveRank).Pairwise (· ≤ ·)) :
    n ≤ 2 ^ 32 - 2 := by
  by_contra hlong
  rw [List.pairwise_map, List.pairwise_iff_getElem] at sorted
  have hwrap := sorted (2 ^ 32 - 3) (2 ^ 32 - 2) (by rw [List.length_range]; omega)
    (by rw [List.length_range]; omega) (by decide)
  rw [List.getElem_range, List.getElem_range] at hwrap
  exact absurd hwrap (by decide)

theorem inOrder_range {n : Nat} (short : n ≤ 2 ^ 32 - 2) : InOrder (List.range n) := by
  refine ⟨List.pairwise_lt_range, ?_⟩
  intro k hk
  rw [List.mem_range] at hk
  omega

theorem movesForward_iff_of_tracks (point : MemoryPoint input world task waves m)
    (tracks : Tracks input.nats (waves.map Prod.snd) cp m) :
    MovesForward m ↔ StaysInFirstIteration input.nats waves := by
  constructor
  · intro forward
    have hnodup := forward.waves cp tracks.held
    rw [tracks.indices] at hnodup
    obtain ⟨n, hwaves⟩ := first_iteration_of_nodup point hnodup
    refine ⟨?_, ?_⟩
    · intro w hw
      rw [hwaves] at hw
      obtain ⟨i, -, rfl⟩ := List.mem_map.mp hw
      rfl
    · intro hnats w hw
      have hsub := tracks.ranks hnats
      rw [hwaves, numbers_of_first] at hsub
      have hshort := below_wrap_of_sorted (forward.ranks.sublist hsub)
      rw [hwaves] at hw
      obtain ⟨i, hi, rfl⟩ := List.mem_map.mp hw
      have := List.mem_range.mp hi
      dsimp only
      omega
  · rintro ⟨first, below⟩
    obtain ⟨n, hwaves⟩ := first_iteration_of_zero point first
    have hnumbers : waves.map Prod.snd = List.range n := by rw [hwaves, numbers_of_first]
    refine ⟨?_, ?_⟩
    · cases hnats : input.nats with
      | false =>
          have hsilent := tracks.silent hnats
          unfold putRanks
          rw [hsilent]
          exact List.Pairwise.nil
      | true =>
          refine (tracks.sorted ?_).1
          rw [hnumbers]
          apply inOrder_range
          by_contra hlong
          have hlast := below hnats (0, 2 ^ 32 - 2) (by
            rw [hwaves, List.mem_map]
            exact ⟨2 ^ 32 - 2, List.mem_range.mpr (by omega), rfl⟩)
          exact absurd hlast (by decide)
    · intro cp' hheld
      rw [tracks.held] at hheld
      cases hheld
      rw [tracks.indices, hnumbers]
      exact List.nodup_range

end Point

/-- At every point of every run at which the checkpoint is written: all writes so far
went forward exactly when reasoning memory is off, or no wave behind a spec repair has
been recorded and no wave number has reached the wrap of the rank. -/
theorem checkpoint_moves_forward_iff (input : EngineInput) (world : EngineWorld)
    (task : ReasoningTask) (waves : List (Nat × Nat)) (m : ReasoningMemory)
    (point : MemoryPoint input world task waves m) :
    MovesForward m ↔
      (input.cfg.reasoningMemory.enabled = true → StaysInFirstIteration input.nats waves) := by
  cases henabled : input.cfg.reasoningMemory.enabled with
  | false =>
      rw [point.disabled henabled]
      simp only [Bool.false_eq_true, false_implies, iff_true]
      refine ⟨List.Pairwise.nil, ?_⟩
      intro cp hheld
      cases hheld
  | true =>
      obtain ⟨cp, htracks⟩ := point.tracks henabled
      simp only [forall_const]
      exact movesForward_iff_of_tracks point htracks

/-! ## A repair between two waves -/

section Example

/-- Reasoning memory, a NATS client and the instability detector are on. -/
def repairingInput : EngineInput :=
  { plainInput with
    cfg := { Config.H2AIConfig.reference with
      gapK1 := ⟨true, true, 1 / 10, 9 / 10, 5, 3⟩
      reasoningMemory := ⟨true, false⟩ }
    constraintCorpus := [sessionDoc]
    nats := true }

/-- The verifier gives another reason in the second wave, and the advisor rewrites the
check. -/
def repairingWorld : EngineWorld :=
  { plainWorld (prunedWave none) with
    wave := fun _ retryCount => prunedWave (some
      (if retryCount = 0 then "lifetime missing" else "issuer unclear"))
    repair := fun _ => ⟨some "names the signed token", fun _ => 95 / 100, 0⟩ }

def plainTask : ReasoningTask := ⟨TenantId.defaultTenant, ["auth"]⟩

theorem started_moves_forward_iff :
    MemoryPoint repairingInput repairingWorld plainTask []
        (startMemory repairingInput plainTask) ∧
      (MovesForward (startMemory repairingInput plainTask) ↔
        (repairingInput.cfg.reasoningMemory.enabled = true →
          StaysInFirstIteration repairingInput.nats [])) :=
  ⟨.started, checkpoint_moves_forward_iff repairingInput repairingWorld plainTask [] _ .started⟩

/-- Two waves, a repair, and the first wave of the next iteration: the phase falls back
to wave 0, which is then completed twice. -/
theorem repair_moves_checkpoint_back :
    ∃ waves m, MemoryPoint repairingInput repairingWorld plainTask waves m ∧
      putRanks m = [0, 2, 3, 2] ∧ m.held.map (·.waveIndices) = some [0, 1, 0] ∧
      ¬ MovesForward m := by
  have hrun : (iterationStart repairingInput repairingWorld 1).map (fun s =>
      let m := memoryOf repairingInput plainTask (recordedState repairingInput repairingWorld 1 0
        (freshController repairingInput s.constraintCorpus, s)).log
      (putRanks m, m.held.map (·.waveIndices))) = some ([0, 2, 3, 2], some [0, 1, 0]) := by
    decide +kernel
  cases hiter : iterationStart repairingInput repairingWorld 1 with
  | none =>
      rw [hiter] at hrun
      cases hrun
  | some s =>
      rw [hiter, Option.map_some, Option.some.injEq, Prod.mk.injEq] at hrun
      obtain ⟨hranks, hheld⟩ := hrun
      refine ⟨_, _, .recorded ⟨s, hiter, Nat.zero_le _, rfl⟩ rfl, hranks, hheld, ?_⟩
      intro forward
      have hsorted := forward.ranks
      rw [hranks] at hsorted
      exact absurd hsorted (by decide)

end Example

end ControlPlane.Guarantees.CheckpointProgress
