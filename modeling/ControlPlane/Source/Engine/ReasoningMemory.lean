import ControlPlane.Source.Engine.WaveHistory
import ControlPlane.Source.Identity

/-!
# The reasoning checkpoint of a run

Embeds `crates/h2ai-types/src/reasoning_checkpoint.rs` and the places of
`run_offline` that write the checkpoint: the start, every recorded wave, the
approval gate and the resolution, which projects it into a `TaskMetaState`.

The checkpoint outlives the restarts and is a function of what the run has logged.
Every checkpoint handed to the store is kept, whether or not the put succeeds; time
stamps are left out.
-/
namespace ControlPlane.Source.Engine

open MapeK

/-! ## The record -/

inductive ReasoningCheckpointPhase where
  | created
  | thinkingDone
  | waveCompleted (k : Nat)
  | mergeDone
  | resolved
  deriving DecidableEq, Repr

/-- `rank`, a `u32`. -/
def ReasoningCheckpointPhase.rank : ReasoningCheckpointPhase → Nat
  | created => 0
  | thinkingDone => 1
  | waveCompleted k => (2 + k) % 2 ^ 32
  | mergeDone => 2 ^ 32 - 2
  | resolved => 2 ^ 32 - 1

theorem ReasoningCheckpointPhase.rank_le (phase : ReasoningCheckpointPhase) :
    phase.rank ≤ 2 ^ 32 - 1 := by
  cases phase with
  | waveCompleted k => exact Nat.le_pred_of_lt (Nat.mod_lt (2 + k) (by decide))
  | _ => decide

inductive TaskQuadrant where
  | degenerate | precision | coverage | complex
  deriving DecidableEq, Repr

structure ArchetypeSelection where
  name : String
  confidence : ℚ
  deriving DecidableEq, Repr

structure AdapterWaveOutput where
  adapterId : String
  outputHash : Nat
  survived : Bool
  deriving DecidableEq, Repr

structure CompletedWave where
  waveIndex : Nat
  adapterOutputs : List AdapterWaveOutput
  deriving DecidableEq, Repr

structure TaskReasoningCheckpoint where
  taskId : String
  tenantId : TenantId
  phase : ReasoningCheckpointPhase
  constraintTags : List String
  domain : Option String
  taskQuadrant : Option TaskQuadrant
  systemContextWithRubricHash : Nat
  constraintCorpusFingerprint : Nat
  sharedUnderstanding : Option String
  tensions : Option (List String)
  archetypeSelection : Option (List ArchetypeSelection)
  thinkingIterations : Option Nat
  completedWaves : List CompletedWave
  retryCount : Nat
  retryContextThatResolved : Option String
  triedTopologies : List TopologyKind
  tauValuesThatConverged : Option (List ℚ)
  hitlTimeoutsFired : Nat
  deriving DecidableEq

structure TaskMetaState where
  taskId : String
  tenantId : TenantId
  constraintTags : List String
  domain : Option String
  taskQuadrant : Option TaskQuadrant
  sharedUnderstanding : String
  tensions : List String
  archetypeResults : List ArchetypeSelection
  thinkingIterations : Nat
  retryCount : Nat
  retryContextThatResolved : Option String
  triedTopologies : List TopologyKind
  tauValuesThatConverged : Option (List ℚ)
  systemContextWithRubricHash : Nat
  constraintCorpusFingerprint : Nat
  deriving DecidableEq

namespace TaskReasoningCheckpoint

def newCreated (taskId : String) (tenantId : TenantId) (constraintTags : List String)
    (domain : Option String) : TaskReasoningCheckpoint :=
  { taskId := taskId
    tenantId := tenantId
    phase := .created
    constraintTags := constraintTags
    domain := domain
    taskQuadrant := none
    systemContextWithRubricHash := 0
    constraintCorpusFingerprint := 0
    sharedUnderstanding := none
    tensions := none
    archetypeSelection := none
    thinkingIterations := none
    completedWaves := []
    retryCount := 0
    retryContextThatResolved := none
    triedTopologies := []
    tauValuesThatConverged := none
    hitlTimeoutsFired := 0 }

/-- `into_meta_state`: without a shared understanding there is nothing to project. -/
def intoMetaState (cp : TaskReasoningCheckpoint) : Option TaskMetaState :=
  cp.sharedUnderstanding.map fun sharedUnderstanding =>
    { taskId := cp.taskId
      tenantId := cp.tenantId
      constraintTags := cp.constraintTags
      domain := cp.domain
      taskQuadrant := cp.taskQuadrant
      sharedUnderstanding := sharedUnderstanding
      tensions := cp.tensions.getD []
      archetypeResults := cp.archetypeSelection.getD []
      thinkingIterations := cp.thinkingIterations.getD 0
      retryCount := cp.retryCount
      retryContextThatResolved := cp.retryContextThatResolved
      triedTopologies := cp.triedTopologies
      tauValuesThatConverged := cp.tauValuesThatConverged
      systemContextWithRubricHash := cp.systemContextWithRubricHash
      constraintCorpusFingerprint := cp.constraintCorpusFingerprint }

/-- Behind a wave. -/
def completeWave (cp : TaskReasoningCheckpoint) (retryCount : Nat) : TaskReasoningCheckpoint :=
  { cp with
    phase := .waveCompleted retryCount
    completedWaves := cp.completedWaves ++ [⟨retryCount, []⟩] }

/-- Behind the approval gate; the phase stays. -/
def noteGate (cp : TaskReasoningCheckpoint) (timedOut : Bool) : TaskReasoningCheckpoint :=
  { cp with hitlTimeoutsFired := if timedOut then cp.hitlTimeoutsFired + 1 else 0 }

def resolve (cp : TaskReasoningCheckpoint) (retryCount : Nat) : TaskReasoningCheckpoint :=
  { cp with
    phase := .resolved
    retryCount := retryCount }

/-- The waves the checkpoint says are completed. -/
def waveIndices (cp : TaskReasoningCheckpoint) : List Nat :=
  cp.completedWaves.map (·.waveIndex)

end TaskReasoningCheckpoint

/-! ## Its writes -/

/-- The checkpoint as it stands, what was handed to `put_reasoning_checkpoint`, and
what was handed to `put_task_meta_state`. -/
structure ReasoningMemory where
  held : Option TaskReasoningCheckpoint
  puts : List TaskReasoningCheckpoint
  metas : List TaskMetaState

/-- What the checkpoint is created from besides the engine's input. -/
structure ReasoningTask where
  tenantId : TenantId
  constraintTags : List String

namespace ReasoningMemory

/-- Change the checkpoint, and hand it over when there is a NATS client. -/
def write (nats : Bool) (change : TaskReasoningCheckpoint → TaskReasoningCheckpoint)
    (m : ReasoningMemory) : ReasoningMemory :=
  match m.held with
  | none => m
  | some cp =>
      { m with
        held := some (change cp)
        puts := if nats then m.puts ++ [change cp] else m.puts }

def follow (nats : Bool) (m : ReasoningMemory) : EngineAction → ReasoningMemory
  | .wave retryCount => m.write nats fun cp => cp.completeWave retryCount
  | .hitlGate gate => m.write nats fun cp => cp.noteGate gate.decision.timedOut
  | _ => m

/-- The projection behind a put that went through. -/
def project (nats written : Bool) (m : ReasoningMemory) : ReasoningMemory :=
  if nats && written then { m with metas := m.metas ++ (m.held.bind (·.intoMetaState)).toList }
  else m

/-- The resolution: the last put, and behind it the meta state. -/
def resolve (nats written : Bool) (retryCount : Nat) (m : ReasoningMemory) : ReasoningMemory :=
  (m.write nats fun cp => cp.resolve retryCount).project nats written

end ReasoningMemory

section Run

variable (input : EngineInput) (world : EngineWorld) (task : ReasoningTask)

/-- In front of the restart loop. -/
def startMemory : ReasoningMemory :=
  let held :=
    if input.cfg.reasoningMemory.enabled then
      some (TaskReasoningCheckpoint.newCreated input.taskId task.tenantId task.constraintTags none)
    else none
  { held := held
    puts := if input.nats then held.toList else []
    metas := [] }

/-- Behind what the run has logged. -/
def memoryOf (log : List EngineAction) : ReasoningMemory :=
  log.foldl (ReasoningMemory.follow input.nats) (startMemory input task)

/-- The state in which the `Return` arm resolves: behind the gate, if it opens. -/
def gatedState (restart retryCount : Nat) (cs : MapeKController × EngineState)
    (out : EngineOutput) : EngineState :=
  if needsHitl input out then
    (hitlGate input (world.wave restart retryCount).gate out
      (decidedState input world restart retryCount cs)).2
  else decidedState input world restart retryCount cs

/-- The `Return` arm gets past the gate. -/
def PassesGate (restart retryCount : Nat) (cs : MapeKController × EngineState)
    (out : EngineOutput) : Prop :=
  needsHitl input out = true →
    (gateRecord input (world.wave restart retryCount).gate
      (decidedState input world restart retryCount cs)).decision.approved = true

/-- The points of a run at which the checkpoint is written, with the waves recorded so
far: after these points nothing writes it. -/
inductive MemoryPoint : List (Nat × Nat) → ReasoningMemory → Prop
  | started : MemoryPoint [] (startMemory input task)
  | recorded {restart retryCount : Nat} {cs : MapeKController × EngineState}
      (start : WaveStart input world restart retryCount cs)
      (inTime : deadlineOver input world restart retryCount = false) :
      MemoryPoint (recordedState input world restart retryCount cs).waves
        (memoryOf input task (recordedState input world restart retryCount cs).log)
  | gated {restart retryCount : Nat} {cs : MapeKController × EngineState} {out : EngineOutput}
      (start : WaveStart input world restart retryCount cs)
      (decided : WaveDecided input world restart retryCount cs)
      (returns : (waveDecision input world restart retryCount cs).1 = .return out) :
      MemoryPoint (recordedState input world restart retryCount cs).waves
        (memoryOf input task (gatedState input world restart retryCount cs out).log)
  | resolved {restart retryCount : Nat} {cs : MapeKController × EngineState} {out : EngineOutput}
      (start : WaveStart input world restart retryCount cs)
      (decided : WaveDecided input world restart retryCount cs)
      (returns : (waveDecision input world restart retryCount cs).1 = .return out)
      (passes : PassesGate input world restart retryCount cs out) :
      MemoryPoint (recordedState input world restart retryCount cs).waves
        ((memoryOf input task (gatedState input world restart retryCount cs out).log).resolve
          input.nats (world.wave restart retryCount).gate.checkpointWritten retryCount)

end Run

/-! ## What the memory keeps track of -/

/-- The number of a logged wave. -/
def EngineAction.waveNumber : EngineAction → Option Nat
  | .wave retryCount => some retryCount
  | _ => none

def waveNumbers (log : List EngineAction) : List Nat := log.filterMap EngineAction.waveNumber

theorem wavesOf_numbers (restart : Nat) (log : List EngineAction) :
    (wavesOf restart log).map Prod.snd = waveNumbers log := by
  unfold waveNumbers
  induction log generalizing restart with
  | nil => rfl
  | cons a rest ih =>
      cases a with
      | wave retryCount =>
          rw [wavesOf, List.map_cons, ih]
          rfl
      | repair constraintId outcome =>
          rw [List.filterMap_cons_none rfl]
          cases outcome with
          | repaired version rewritten => exact ih (restart + 1)
          | failed score => exact ih restart
      | _ =>
          rw [List.filterMap_cons_none rfl]
          exact ih restart

theorem EngineState.waves_numbers (s : EngineState) :
    s.waves.map Prod.snd = waveNumbers s.log := wavesOf_numbers 0 s.log

def putRanks (m : ReasoningMemory) : List Nat := m.puts.map (·.phase.rank)

def waveRank (k : Nat) : Nat := (ReasoningCheckpointPhase.waveCompleted k).rank

/-- A run of waves whose ranks do not wrap, in order. -/
def InOrder (numbers : List Nat) : Prop :=
  numbers.Pairwise (· < ·) ∧ ∀ k ∈ numbers, k < 2 ^ 32 - 2

/-- The memory of an enabled checkpoint behind waves of these numbers. -/
structure Tracks (nats : Bool) (numbers : List Nat) (cp : TaskReasoningCheckpoint)
    (m : ReasoningMemory) : Prop where
  held : m.held = some cp
  indices : cp.waveIndices = numbers
  unshared : cp.sharedUnderstanding = none
  unprojected : m.metas = []
  silent : nats = false → m.puts = []
  ranks : nats = true → (numbers.map waveRank).Sublist (putRanks m)
  /-- As long as the waves come in order, so do the ranks. -/
  sorted : InOrder numbers →
    (putRanks m).Pairwise (· ≤ ·) ∧ ∀ rank ∈ putRanks m, rank ≤ cp.phase.rank

/-- The phase of a task that is not resolved. -/
def Running (numbers : List Nat) (cp : TaskReasoningCheckpoint) : Prop :=
  cp.phase = .created ∨ ∃ k ∈ numbers, cp.phase = .waveCompleted k

theorem InOrder.of_append {numbers extra : List Nat} (h : InOrder (numbers ++ extra)) :
    InOrder numbers :=
  ⟨(List.pairwise_append.mp h.1).1, fun k hk => h.2 k (List.mem_append_left extra hk)⟩

theorem waveRank_of_lt {k : Nat} (h : k < 2 ^ 32 - 2) : waveRank k = 2 + k := by
  unfold waveRank ReasoningCheckpointPhase.rank
  exact Nat.mod_eq_of_lt (by omega)

section Tracking

variable {nats : Bool} {numbers : List Nat} {cp : TaskReasoningCheckpoint}
  {m : ReasoningMemory}

/-- A write that appends waves and does not lower the rank keeps track. -/
theorem Tracks.write (h : Tracks nats numbers cp m)
    (change : TaskReasoningCheckpoint → TaskReasoningCheckpoint) (extra : List Nat)
    (indices : (change cp).waveIndices = numbers ++ extra)
    (unshared : (change cp).sharedUnderstanding = none)
    (ranks : (extra.map waveRank).Sublist [(change cp).phase.rank])
    (grows : InOrder (numbers ++ extra) → cp.phase.rank ≤ (change cp).phase.rank) :
    Tracks nats (numbers ++ extra) (change cp) (m.write nats change) := by
  have hwrite : m.write nats change =
      { m with
        held := some (change cp)
        puts := if nats then m.puts ++ [change cp] else m.puts } := by
    unfold ReasoningMemory.write
    rw [h.held]
  rw [hwrite]
  refine ⟨rfl, indices, unshared, h.unprojected, ?_, ?_, ?_⟩
  · intro hnats
    simp only [hnats, Bool.false_eq_true, ↓reduceIte]
    exact h.silent hnats
  · intro hnats
    simp only [putRanks, hnats, ↓reduceIte, List.map_append, List.map_cons, List.map_nil]
    exact (h.ranks hnats).append ranks
  · intro order
    obtain ⟨hsorted, hbound⟩ := h.sorted order.of_append
    cases nats with
    | false =>
        simp only [putRanks, Bool.false_eq_true, ↓reduceIte]
        exact ⟨hsorted, fun rank hrank => (hbound rank hrank).trans (grows order)⟩
    | true =>
        simp only [putRanks, ↓reduceIte, List.map_append, List.map_cons, List.map_nil]
        refine ⟨?_, ?_⟩
        · rw [List.pairwise_append]
          refine ⟨hsorted, List.pairwise_singleton _ _, ?_⟩
          intro rank hrank last hlast
          rw [List.mem_singleton.mp hlast]
          exact (hbound rank hrank).trans (grows order)
        · intro rank hrank
          rcases List.mem_append.mp hrank with hold | hlast
          · exact (hbound rank hold).trans (grows order)
          · exact (List.mem_singleton.mp hlast).le

theorem Tracks.wave (h : Tracks nats numbers cp m) (running : Running numbers cp) (k : Nat) :
    Tracks nats (numbers ++ [k]) (cp.completeWave k)
      (m.follow nats (.wave k)) := by
  have hindices : (cp.completeWave k).waveIndices = numbers ++ [k] := by
    rw [← h.indices]
    simp [TaskReasoningCheckpoint.waveIndices, TaskReasoningCheckpoint.completeWave]
  refine h.write (fun cp => cp.completeWave k) [k] hindices h.unshared
    (List.Sublist.refl _) ?_
  intro order
  rcases running with hcreated | ⟨j, hj, hphase⟩
  · rw [hcreated]
    exact Nat.zero_le _
  · have hjk : j < k := (List.pairwise_append.mp order.1).2.2 j hj k (by simp)
    have hk := order.2 k (by simp)
    have hrank : (cp.completeWave k).phase.rank = waveRank k := rfl
    have hold : cp.phase.rank = waveRank j := by
      rw [hphase]
      rfl
    rw [hrank, hold, waveRank_of_lt hk, waveRank_of_lt (hjk.trans hk)]
    omega

theorem Tracks.gate (h : Tracks nats numbers cp m) (gate : GateRecord) :
    Tracks nats numbers (cp.noteGate gate.decision.timedOut) (m.follow nats (.hitlGate gate)) := by
  have hwrite := h.write (fun cp => cp.noteGate gate.decision.timedOut) []
    (by rw [List.append_nil, ← h.indices]; rfl) h.unshared (List.nil_sublist _)
    (fun _ => le_rfl)
  rwa [List.append_nil] at hwrite

/-- The resolution is the last write: nothing has a higher rank, and there is nothing
to project. -/
theorem Tracks.resolve (h : Tracks nats numbers cp m) (written : Bool) (retryCount : Nat) :
    Tracks nats numbers (cp.resolve retryCount) (m.resolve nats written retryCount) := by
  have hwrite := h.write (fun cp => cp.resolve retryCount) []
    (by rw [List.append_nil, ← h.indices]; rfl) h.unshared (List.nil_sublist _)
    (fun _ => cp.phase.rank_le)
  rw [List.append_nil] at hwrite
  have hproject : m.resolve nats written retryCount =
      m.write nats fun cp => cp.resolve retryCount := by
    unfold ReasoningMemory.resolve ReasoningMemory.project
    split
    · have hmeta : (m.write nats fun cp => cp.resolve retryCount).held.bind
          (·.intoMetaState) = none := by
        rw [hwrite.held]
        unfold TaskReasoningCheckpoint.intoMetaState
        rw [Option.bind_some, hwrite.unshared]
        rfl
      rw [hmeta, Option.toList_none, List.append_nil]
    · rfl
  rw [hproject]
  exact hwrite

end Tracking

section Memory

variable (input : EngineInput) (task : ReasoningTask)

theorem startMemory_tracks (enabled : input.cfg.reasoningMemory.enabled = true) :
    Tracks input.nats []
      (.newCreated input.taskId task.tenantId task.constraintTags none)
      (startMemory input task) := by
  unfold startMemory
  rw [if_pos enabled]
  refine ⟨rfl, rfl, rfl, rfl, ?_, ?_, ?_⟩
  · intro hnats
    dsimp only
    rw [hnats]
    rfl
  · intro _
    exact List.nil_sublist _
  · intro _
    cases input.nats with
    | true =>
        refine ⟨List.pairwise_singleton _ _, ?_⟩
        intro rank hrank
        exact (List.mem_singleton.mp hrank).le
    | false => exact ⟨List.Pairwise.nil, fun rank hrank => by cases hrank⟩

theorem memoryOf_append (log : List EngineAction) (a : EngineAction) :
    memoryOf input task (log ++ [a]) = (memoryOf input task log).follow input.nats a := by
  unfold memoryOf
  rw [List.foldl_append]
  rfl

/-- The memory keeps track of the logged waves. -/
theorem memoryOf_tracks (enabled : input.cfg.reasoningMemory.enabled = true)
    (log : List EngineAction) :
    ∃ cp, Tracks input.nats (waveNumbers log) cp (memoryOf input task log) ∧
      Running (waveNumbers log) cp := by
  induction log using List.reverseRecOn with
  | nil => exact ⟨_, startMemory_tracks input task enabled, .inl rfl⟩
  | append_singleton log a ih =>
      obtain ⟨cp, htracks, hrunning⟩ := ih
      rw [memoryOf_append]
      unfold waveNumbers at *
      rw [List.filterMap_append]
      cases a with
      | wave k =>
          exact ⟨_, htracks.wave hrunning k, .inr ⟨k, by simp [EngineAction.waveNumber], rfl⟩⟩
      | hitlGate gate =>
          have hnone : List.filterMap EngineAction.waveNumber [.hitlGate gate] = [] := rfl
          rw [hnone, List.append_nil]
          exact ⟨cp.noteGate gate.decision.timedOut, htracks.gate gate, hrunning⟩
      | _ =>
          rw [List.filterMap_cons_none rfl, List.filterMap_nil, List.append_nil]
          exact ⟨cp, htracks, hrunning⟩

/-- Without reasoning memory there is no checkpoint. -/
theorem memoryOf_disabled (disabled : input.cfg.reasoningMemory.enabled = false)
    (log : List EngineAction) : memoryOf input task log = ⟨none, [], []⟩ := by
  induction log using List.reverseRecOn with
  | nil =>
      unfold memoryOf startMemory
      simp [disabled]
  | append_singleton log a ih =>
      rw [memoryOf_append, ih]
      cases a <;> rfl

end Memory

/-! ## Points of a run -/

section Points

variable {input : EngineInput} {world : EngineWorld} {task : ReasoningTask}

/-- Nothing between the record of a wave and its resolution is a wave. -/
theorem gatedState_waves (restart retryCount : Nat) (cs : MapeKController × EngineState)
    (out : EngineOutput) :
    (gatedState input world restart retryCount cs out).waves =
      (recordedState input world restart retryCount cs).waves := by
  have hdecided : (decidedState input world restart retryCount cs).waves =
      (recordedState input world restart retryCount cs).waves :=
    (decidedState_waves input world restart retryCount cs).1.trans
      (recordedState_waves input world restart retryCount cs).1.symm
  rw [← hdecided]
  unfold gatedState
  split
  · exact ((hitlGate_appends input (world.wave restart retryCount).gate out _).idle
      fun a ha => (gateActions_plain input out _ a ha).idle).1
  · rfl

theorem MemoryPoint.tracks (enabled : input.cfg.reasoningMemory.enabled = true)
    {waves : List (Nat × Nat)} {m : ReasoningMemory} (h : MemoryPoint input world task waves m) :
    ∃ cp, Tracks input.nats (waves.map Prod.snd) cp m := by
  cases h with
  | started => exact ⟨_, startMemory_tracks input task enabled⟩
  | @recorded restart retryCount cs start inTime =>
      obtain ⟨cp, htracks, -⟩ := memoryOf_tracks input task enabled
        (recordedState input world restart retryCount cs).log
      rw [EngineState.waves_numbers]
      exact ⟨cp, htracks⟩
  | @gated restart retryCount cs out start decided returns =>
      obtain ⟨cp, htracks, -⟩ := memoryOf_tracks input task enabled
        (gatedState input world restart retryCount cs out).log
      rw [← gatedState_waves restart retryCount cs out, EngineState.waves_numbers]
      exact ⟨cp, htracks⟩
  | @resolved restart retryCount cs out start decided returns passes =>
      obtain ⟨cp, htracks, -⟩ := memoryOf_tracks input task enabled
        (gatedState input world restart retryCount cs out).log
      rw [← gatedState_waves restart retryCount cs out, EngineState.waves_numbers]
      exact ⟨_, htracks.resolve _ retryCount⟩

theorem MemoryPoint.disabled (disabled : input.cfg.reasoningMemory.enabled = false)
    {waves : List (Nat × Nat)} {m : ReasoningMemory} (h : MemoryPoint input world task waves m) :
    m = ⟨none, [], []⟩ := by
  cases h with
  | started => exact memoryOf_disabled input task disabled []
  | recorded start inTime => exact memoryOf_disabled input task disabled _
  | gated start decided returns => exact memoryOf_disabled input task disabled _
  | resolved start decided returns passes =>
      rw [memoryOf_disabled input task disabled]
      unfold ReasoningMemory.resolve ReasoningMemory.project
      split <;> rfl

/-- The waves of a point: none, or those of earlier iterations and the first ones of
the iteration it is in. -/
theorem MemoryPoint.waves_eq {waves : List (Nat × Nat)} {m : ReasoningMemory}
    (h : MemoryPoint input world task waves m) :
    waves = [] ∨ ∃ restart retryCount s₀, iterationStart input world restart = some s₀ ∧
      waves = s₀.waves ++ (List.range (retryCount + 1)).map fun i => (restart, i) := by
  cases h with
  | started => exact .inl rfl
  | @recorded restart retryCount cs start inTime =>
      obtain ⟨s₀, hiter, hwaves⟩ := recorded_waves start
      exact .inr ⟨restart, retryCount, s₀, hiter, hwaves⟩
  | @gated restart retryCount cs out start decided returns =>
      obtain ⟨s₀, hiter, hwaves⟩ := recorded_waves start
      exact .inr ⟨restart, retryCount, s₀, hiter, hwaves⟩
  | @resolved restart retryCount cs out start decided returns passes =>
      obtain ⟨s₀, hiter, hwaves⟩ := recorded_waves start
      exact .inr ⟨restart, retryCount, s₀, hiter, hwaves⟩

/-- An iteration that ends in a repair has run its first wave. -/
theorem iterationStart_first {restart : Nat} {s : EngineState}
    (h : iterationStart input world (restart + 1) = some s) : (restart, 0) ∈ s.waves := by
  obtain ⟨signal, c, s₁, version, rewritten, corpus', hpoint, -, rfl⟩ :=
    iterationStart_succ input world h
  obtain ⟨n, cs, start, -, rfl⟩ := repairPoint_wave input world hpoint
  have hwaves := repairedState_waves input signal (decidedState input world restart n cs)
    (.repaired version rewritten) corpus'
  unfold repairedState at hwaves
  obtain ⟨s₀, -, hrecorded⟩ := recorded_waves start
  rw [(recordedState_waves input world restart n cs).1] at hrecorded
  rw [hwaves, (decidedState_waves input world restart n cs).1, hrecorded]
  simp

end Points

end ControlPlane.Source.Engine
