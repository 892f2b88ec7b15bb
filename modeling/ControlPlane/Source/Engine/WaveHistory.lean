import ControlPlane.Source.Engine.Proposals
import ControlPlane.Source.Engine.RunOutcomes

/-!
# The waves of a run

A log names the waves that have been run, each by its iteration and its number in
it. The guarantees that count something over the whole run count it over this list.
-/
namespace ControlPlane.Source.Engine

open Constraints MapeK Lib

/-! ## Waves of a log -/

/-- A successful repair starts the next iteration. -/
def EngineAction.isRestart : EngineAction → Bool
  | .repair _ (.repaired _ _) => true
  | _ => false

/-- Iteration and number of every wave, as `engineOps` reads them off a log. -/
def wavesOf : Nat → List EngineAction → List (Nat × Nat)
  | _, [] => []
  | restart, .wave retryCount :: rest => (restart, retryCount) :: wavesOf restart rest
  | restart, .repair _ (.repaired _ _) :: rest => wavesOf (restart + 1) rest
  | restart, _ :: rest => wavesOf restart rest

def restartsOf (log : List EngineAction) : Nat := log.countP EngineAction.isRestart

theorem wavesOf_append (restart : Nat) (log tail : List EngineAction) :
    wavesOf restart (log ++ tail) =
      wavesOf restart log ++ wavesOf (restart + restartsOf log) tail := by
  induction log generalizing restart with
  | nil => rfl
  | cons a rest ih =>
      unfold restartsOf at ih ⊢
      cases a with
      | wave retryCount =>
          rw [List.countP_cons_of_neg Bool.false_ne_true, List.cons_append, wavesOf, wavesOf, ih]
          rfl
      | repair constraintId outcome =>
          cases outcome with
          | repaired version rewritten =>
              rw [List.countP_cons_of_pos (by rfl), List.cons_append, wavesOf, wavesOf, ih]
              rw [Nat.add_assoc, Nat.add_comm 1]
          | failed score =>
              rw [List.countP_cons_of_neg (by simp [EngineAction.isRestart])]
              exact ih restart
      | _ =>
          rw [List.countP_cons_of_neg (by simp [EngineAction.isRestart])]
          exact ih restart

theorem restartsOf_append (log tail : List EngineAction) :
    restartsOf (log ++ tail) = restartsOf log + restartsOf tail := List.countP_append

/-- Neither a wave nor the start of an iteration. -/
def EngineAction.Idle (a : EngineAction) : Prop := a.isWave = false ∧ a.isRestart = false

theorem EngineAction.Plain.idle {a : EngineAction} (h : a.Plain) : a.Idle := by
  refine ⟨h.1, ?_⟩
  cases a with
  | repair constraintId outcome => cases h.2
  | _ => rfl

theorem wavesOf_idle {actions : List EngineAction} (h : ∀ a ∈ actions, a.Idle) (restart : Nat) :
    wavesOf restart actions = [] := by
  induction actions with
  | nil => rfl
  | cons a rest ih =>
      obtain ⟨ha, hrest⟩ := List.forall_mem_cons.mp h
      cases a with
      | wave retryCount => cases ha.1
      | repair constraintId outcome =>
          cases outcome with
          | repaired version rewritten => cases ha.2
          | failed score => exact ih hrest
      | _ => exact ih hrest

theorem restartsOf_idle {actions : List EngineAction} (h : ∀ a ∈ actions, a.Idle) :
    restartsOf actions = 0 := by
  unfold restartsOf
  rw [List.countP_eq_zero]
  intro a ha
  rw [(h a ha).2]
  exact Bool.false_ne_true

/-! ## Waves of a state -/

def EngineState.waves (s : EngineState) : List (Nat × Nat) := wavesOf 0 s.log

def EngineState.restarts (s : EngineState) : Nat := restartsOf s.log

theorem Appends.idle {s s' : EngineState} {actions : List EngineAction}
    (h : Appends s s' actions) (idle : ∀ a ∈ actions, a.Idle) :
    s'.waves = s.waves ∧ s'.restarts = s.restarts := by
  unfold EngineState.waves EngineState.restarts
  rw [h.log, wavesOf_append, restartsOf_append, wavesOf_idle idle, restartsOf_idle idle]
  exact ⟨List.append_nil _, rfl⟩

variable (input : EngineInput) (world : EngineWorld)

section Wave

variable (restart retryCount : Nat) (cs : MapeKController × EngineState)

theorem postSelections_idle (calls : List PostSelectionCall) :
    ∀ a ∈ calls.map EngineAction.postSelection, a.Idle := by
  intro a ha
  obtain ⟨call, -, rfl⟩ := List.mem_map.mp ha
  exact ⟨rfl, rfl⟩

/-- The wave joins those of the state it is started with. -/
theorem recordedState_waves :
    (recordedState input world restart retryCount cs).waves =
      cs.2.waves ++ [(cs.2.restarts, retryCount)] ∧
    (recordedState input world restart retryCount cs).restarts = cs.2.restarts := by
  have hidle := postSelections_idle (waveRun input world restart retryCount cs).postSelections
  have happends := recordWave_appends cs.2 retryCount (waveRun input world restart retryCount cs)
  unfold recordedState EngineState.waves EngineState.restarts
  rw [happends.log, wavesOf_append, wavesOf, wavesOf_idle hidle, Nat.zero_add,
    restartsOf_append]
  refine ⟨rfl, ?_⟩
  unfold restartsOf at *
  rw [List.countP_cons_of_neg Bool.false_ne_true]
  exact congrArg (restartsOf cs.2.log + ·) (restartsOf_idle hidle)

theorem decidedState_waves :
    (decidedState input world restart retryCount cs).waves =
      cs.2.waves ++ [(cs.2.restarts, retryCount)] ∧
    (decidedState input world restart retryCount cs).restarts = cs.2.restarts := by
  have hrecorded := recordedState_waves input world restart retryCount cs
  have happends : Appends (recordedState input world restart retryCount cs)
      (decidedState input world restart retryCount cs)
      ([] ++ [.decision retryCount (waveRun input world restart retryCount cs).result.outcome
        (waveDecision input world restart retryCount cs).1]) :=
    (waveWindow_appends input (world.wave restart retryCount)
      (observedWave input world restart retryCount cs) _).trans (appends_note _ _)
  have hidle := happends.idle (by
    intro a ha
    rw [List.mem_singleton.mp ha]
    exact ⟨rfl, rfl⟩)
  rw [hidle.1, hidle.2]
  exact hrecorded

end Wave

theorem guardRepair_waves (signal : InstabilitySignal) (s : EngineState) :
    (guardRepair input signal s).waves = s.waves ∧
      (guardRepair input signal s).restarts = s.restarts := by
  obtain ⟨actions, happends, hguard⟩ := guardRepair_appends input signal s
  refine happends.idle ?_
  intro a ha
  rw [hguard a ha]
  exact ⟨rfl, rfl⟩

theorem repairedState_waves (signal : InstabilitySignal) (s : EngineState)
    (outcome : RepairOutcome) (corpus' : List ConstraintDoc) :
    (repairedState input signal s outcome corpus').waves = s.waves := by
  have hguard := (guardRepair_waves input signal s).1
  unfold EngineState.waves repairedState EngineState.note at *
  rw [wavesOf_append, hguard]
  cases outcome <;> exact List.append_nil _

theorem repairedState_restarts (signal : InstabilitySignal) (s : EngineState) (version : Nat)
    (rewritten : String) (corpus' : List ConstraintDoc) :
    (repairedState input signal s (.repaired version rewritten) corpus').restarts =
      s.restarts + 1 := by
  have hguard := (guardRepair_waves input signal s).2
  unfold EngineState.restarts repairedState EngineState.note at *
  rw [restartsOf_append, hguard]
  rfl

/-! ## Waves of a run -/

variable {input world}

/-- The waves of one iteration are numbered from zero. -/
theorem roundStart_waves {restart retryCount : Nat} {s₀ : EngineState}
    {cs : MapeKController × EngineState}
    (h : roundStart (waveBody input world restart) 0
      (freshController input s₀.constraintCorpus, s₀) retryCount = some cs) :
    cs.2.waves = s₀.waves ++ (List.range retryCount).map (fun i => (s₀.restarts, i)) ∧
      cs.2.restarts = s₀.restarts := by
  induction retryCount generalizing cs with
  | zero =>
      cases h
      exact ⟨(List.append_nil _).symm, rfl⟩
  | succ retryCount ih =>
      obtain ⟨cs₁, hstart, -, rfl⟩ := waveStart_succ input world h
      obtain ⟨hwaves, hrestarts⟩ := ih hstart
      have hdecided := decidedState_waves input world restart retryCount cs₁
      dsimp only
      rw [hdecided.1, hdecided.2, hwaves, hrestarts, List.range_succ, List.map_append,
        List.append_assoc]
      exact ⟨rfl, rfl⟩

/-- Iterations are numbered by the repairs in front of them. -/
theorem iterationStart_waves {restart : Nat} {s : EngineState}
    (h : iterationStart input world restart = some s) :
    s.restarts = restart ∧ ∀ w ∈ s.waves, w.1 < restart := by
  induction restart generalizing s with
  | zero =>
      rw [iterationStart_zero h]
      exact ⟨rfl, fun w hw => by cases hw⟩
  | succ restart ih =>
      obtain ⟨signal, c, s₁, version, rewritten, corpus', hpoint, -, rfl⟩ :=
        iterationStart_succ input world h
      obtain ⟨n, cs, ⟨s₀, hiter, -, hstart⟩, -, rfl⟩ := repairPoint_wave input world hpoint
      obtain ⟨hnumber, hearlier⟩ := ih hiter
      have hrounds := roundStart_waves hstart
      have hdecided := decidedState_waves input world restart n cs
      have hwaves := repairedState_waves input signal (decidedState input world restart n cs)
        (.repaired version rewritten) corpus'
      have hrestarts := repairedState_restarts input signal (decidedState input world restart n cs)
        version rewritten corpus'
      unfold repairedState at hwaves hrestarts
      rw [hwaves, hrestarts, hdecided.1, hdecided.2, hrounds.1, hrounds.2, hnumber]
      refine ⟨rfl, ?_⟩
      intro w hw
      simp only [List.append_assoc, List.mem_append, List.mem_map, List.mem_singleton] at hw
      rcases hw with hold | ⟨i, -, rfl⟩ | rfl
      · exact Nat.lt_succ_of_lt (hearlier w hold)
      · exact Nat.lt_succ_self restart
      · exact Nat.lt_succ_self restart

theorem waveStart_restarts {restart retryCount : Nat} {cs : MapeKController × EngineState}
    (start : WaveStart input world restart retryCount cs) : cs.2.restarts = restart := by
  obtain ⟨s₀, hiter, -, hstart⟩ := start
  exact (roundStart_waves hstart).2.trans (iterationStart_waves hiter).1

/-- Once a wave is recorded, the run has run those of earlier iterations and all of this
one up to it. -/
theorem recorded_waves {restart retryCount : Nat} {cs : MapeKController × EngineState}
    (start : WaveStart input world restart retryCount cs) :
    ∃ s₀, iterationStart input world restart = some s₀ ∧
      (recordedState input world restart retryCount cs).waves =
        s₀.waves ++ (List.range (retryCount + 1)).map fun i => (restart, i) := by
  obtain ⟨s₀, hiter, -, hstart⟩ := start
  obtain ⟨hnumber, -⟩ := iterationStart_waves hiter
  obtain ⟨hwaves, hrestarts⟩ := roundStart_waves hstart
  refine ⟨s₀, hiter, ?_⟩
  rw [(recordedState_waves input world restart retryCount cs).1, hwaves, hrestarts, hnumber,
    List.range_succ, List.map_append, List.append_assoc]
  rfl

/-! ## Sums over the waves of a run -/

/-- The sum of something over the waves that the run has behind it. -/
def overWaves (waves : Nat → Nat → WaveAnswers) (f : Nat → WaveAnswers → Nat)
    (s : EngineState) : Nat :=
  (s.waves.map fun w => f w.2 (waves w.1 w.2)).sum

theorem overWaves_add (waves : Nat → Nat → WaveAnswers) (f g : Nat → WaveAnswers → Nat)
    (s : EngineState) :
    overWaves waves (fun n a => f n a + g n a) s = overWaves waves f s + overWaves waves g s := by
  unfold overWaves
  exact List.sum_map_add

/-! ## A plain task -/

/-- Every wave of the plain task gets these answers. -/
def sameWaves (a : WaveAnswers) : EngineWorld :=
  withWaves plainInput plainSettings (plainWorld (plainWave (plainPhases ""))) fun _ _ => a

/-- Where the first wave of the plain task starts. -/
def firstWave (a : WaveAnswers) : MapeKController × EngineState :=
  (freshController plainInput [], initialState plainInput (sameWaves a))

theorem firstWave_start (a : WaveAnswers) :
    WaveStart plainInput (sameWaves a) 0 0 (firstWave a) :=
  ⟨initialState plainInput (sameWaves a), rfl, Nat.zero_le _, rfl⟩

end ControlPlane.Source.Engine
