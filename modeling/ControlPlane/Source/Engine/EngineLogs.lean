import ControlPlane.Source.Engine.EngineRuns

/-!
# Logs of a run

An invariant rule for the log of a run: what holds of every action of a wave
that goes on, of the repair guard and of the repairs holds of the whole log at
every point of the run, and at its end unless a wave was returned.
-/
namespace ControlPlane.Source.Engine

open Constraints MapeK Lib

variable (input : EngineInput) (world : EngineWorld)

/-- `P` holds of everything a run logs before it ends. -/
structure Admits (P : EngineAction → Prop) : Prop where
  wave : ∀ retryCount, P (.wave retryCount)
  postSelection : ∀ call, P (.postSelection call)
  decision : ∀ {restart retryCount cs}, WaveStart input world restart retryCount cs →
    (waveDecision input world restart retryCount cs).1.isReturn = false →
    P (.decision retryCount (waveRun input world restart retryCount cs).result.outcome
      (waveDecision input world restart retryCount cs).1)
  repairGuard : ∀ constraintId, P (.repairGuard constraintId)
  repair : ∀ {restart signal c s outcome corpus'}, RepairPoint input world restart signal c s →
    RepairAttempt input world restart signal s.constraintCorpus outcome corpus' →
    P (.repair signal.constraintId outcome)

/-- `P` holds of the whole log. -/
def EngineState.Logs (s : EngineState) (P : EngineAction → Prop) : Prop := ∀ a ∈ s.log, P a

variable {P : EngineAction → Prop}

theorem Appends.logs {s s' : EngineState} {actions : List EngineAction}
    (h : Appends s s' actions) (before : s.Logs P) (new : ∀ a ∈ actions, P a) : s'.Logs P := by
  intro a ha
  rw [h.log] at ha
  rcases List.mem_append.mp ha with hold | hnew
  · exact before a hold
  · exact new a hnew

variable {input world}

/-- A wave and the oracle calls of its selection. -/
theorem recordWave_logs (admits : Admits input world P) {s : EngineState} (retryCount : Nat)
    (run : WaveRun) (before : s.Logs P) : (recordWave s retryCount run).Logs P := by
  refine (recordWave_appends s retryCount run).logs before ?_
  intro a ha
  rcases List.mem_cons.mp ha with rfl | hpost
  · exact admits.wave retryCount
  · obtain ⟨call, -, rfl⟩ := List.mem_map.mp hpost
    exact admits.postSelection call

/-- A decided wave, where `P` is known of its decision. -/
theorem decided_logs (admits : Admits input world P) {restart retryCount : Nat}
    {cs : MapeKController × EngineState}
    (decided : P (.decision retryCount (waveRun input world restart retryCount cs).result.outcome
      (waveDecision input world restart retryCount cs).1))
    (before : cs.2.Logs P) : (decidedState input world restart retryCount cs).Logs P := by
  refine (decidedState_appends input world restart retryCount cs).logs before ?_
  intro a ha
  unfold waveActions at ha
  rcases List.mem_append.mp ha with hwave | hdecision
  · have hrecorded := recordWave_logs admits retryCount
      (waveRun input world restart retryCount cs) before
    refine hrecorded a ?_
    rw [(recordWave_appends _ _ _).log]
    exact List.mem_append_right _ hwave
  · rw [List.mem_singleton.mp hdecision]
    exact decided

theorem decidedState_logs (admits : Admits input world P) {restart retryCount : Nat}
    {cs : MapeKController × EngineState} (start : WaveStart input world restart retryCount cs)
    (goesOn : (waveDecision input world restart retryCount cs).1.isReturn = false)
    (before : cs.2.Logs P) : (decidedState input world restart retryCount cs).Logs P :=
  decided_logs admits (admits.decision start goesOn) before

theorem guardRepair_logs (admits : Admits input world P) (signal : InstabilitySignal)
    {s : EngineState} (before : s.Logs P) : (guardRepair input signal s).Logs P := by
  obtain ⟨actions, happends, hguard⟩ := guardRepair_appends input signal s
  refine happends.logs before ?_
  intro a ha
  rw [hguard a ha]
  exact admits.repairGuard signal.constraintId

theorem attempt_logs (admits : Admits input world P) {restart : Nat}
    {signal : InstabilitySignal} {c : MapeKController} {s : EngineState}
    {outcome : RepairOutcome} {corpus' : List ConstraintDoc}
    (point : RepairPoint input world restart signal c s)
    (attempt : RepairAttempt input world restart signal s.constraintCorpus outcome corpus')
    (before : s.Logs P) :
    ((guardRepair input signal s).note [.repair signal.constraintId outcome]).Logs P := by
  refine (appends_note _ _).logs (guardRepair_logs admits signal before) ?_
  intro a ha
  rw [List.mem_singleton.mp ha]
  exact admits.repair point attempt

section Iteration

variable {restart : Nat} {s₀ : EngineState}

/-- The waves of one iteration. -/
theorem wave_logs (admits : Admits input world P)
    (start : iterationStart input world restart = some s₀) (before : s₀.Logs P)
    {retryCount : Nat} (bound : retryCount ≤ input.cfg.maxAutonomicRetries)
    {cs : MapeKController × EngineState}
    (h : roundStart (waveBody input world restart) 0
      (freshController input s₀.constraintCorpus, s₀) retryCount = some cs) : cs.2.Logs P := by
  induction retryCount generalizing cs with
  | zero =>
      cases h
      exact before
  | succ retryCount ih =>
      obtain ⟨cs₁, hstart, hretry, rfl⟩ := waveStart_succ input world h
      refine decidedState_logs admits ⟨s₀, start, by omega, hstart⟩ ?_ (ih (by omega) hstart)
      rw [hretry]
      rfl

/-- The repair at the end of an iteration whose start is known. -/
theorem repair_logs (admits : Admits input world P)
    (before : ∀ s₀, iterationStart input world restart = some s₀ → s₀.Logs P)
    {signal : InstabilitySignal} {c : MapeKController} {s : EngineState}
    (h : RepairPoint input world restart signal c s) : s.Logs P := by
  obtain ⟨n, cs, ⟨s₀, hiter, hn, hstart⟩, hsignal, rfl⟩ := repairPoint_wave input world h
  have hwave : cs.2.Logs P := wave_logs admits hiter (before s₀ hiter) hn hstart
  refine decidedState_logs admits ⟨s₀, hiter, hn, hstart⟩ ?_ hwave
  rw [hsignal]
  rfl

end Iteration

/-- The iterations of a run. -/
theorem iterationStart_logs (admits : Admits input world P) {restart : Nat} {s : EngineState}
    (h : iterationStart input world restart = some s) : s.Logs P := by
  induction restart generalizing s with
  | zero =>
      rw [iterationStart_zero h]
      intro a ha
      cases ha
  | succ restart ih =>
      obtain ⟨signal, c, s₁, version, rewritten, corpus', hpoint, hattempt, rfl⟩ :=
        iterationStart_succ input world h
      exact attempt_logs admits hpoint hattempt (repair_logs admits (fun _ => ih) hpoint)

theorem waveStart_logs (admits : Admits input world P) {restart retryCount : Nat}
    {cs : MapeKController × EngineState} (h : WaveStart input world restart retryCount cs) :
    cs.2.Logs P := by
  obtain ⟨s₀, hiter, hn, hstart⟩ := h
  exact wave_logs admits hiter (iterationStart_logs admits hiter) hn hstart

theorem repairPoint_logs (admits : Admits input world P) {restart : Nat}
    {signal : InstabilitySignal} {c : MapeKController} {s : EngineState}
    (h : RepairPoint input world restart signal c s) : s.Logs P :=
  repair_logs admits (fun _ => iterationStart_logs admits) h

theorem exhaustionPoint_logs (admits : Admits input world P) {restart : Nat} {graft : Bool}
    {c : MapeKController} {s : EngineState}
    (h : ExhaustionPoint input world restart graft c s) : s.Logs P := by
  obtain ⟨n, cs, hwave, hopen, hstate⟩ := exhaustion_wave input world h
  have hdecided := decidedState_logs admits hwave (Bool.or_eq_false_iff.mp hopen).1
    (waveStart_logs admits hwave)
  rcases hstate with rfl | ⟨signal, score, corpus', hpoint, hattempt, rfl⟩
  · exact hdecided
  · exact attempt_logs admits hpoint hattempt hdecided

theorem cleanup_logs (input : EngineInput) (failed : P .markFailed)
    (deleted : P .deleteSignalConsumer) (s : EngineState) :
    ∀ a ∈ EngineAction.markFailed :: deleteConsumer input s, P a := by
  intro a ha
  rcases List.mem_cons.mp ha with rfl | hdelete
  · exact failed
  · unfold deleteConsumer at hdelete
    split at hdelete
    · rw [List.mem_singleton.mp hdelete]
      exact deleted
    · cases hdelete

/-- The exhaustion handler. -/
theorem exhausted_logs (input : EngineInput) (world : EngineWorld) (restart : Nat) (graft : Bool)
    (c : MapeKController) {s : EngineState} (before : s.Logs P) (failed : P .markFailed)
    (resolved : P .markResolved) (deleted : P .deleteSignalConsumer) :
    (exhausted input world restart graft c s).2.Logs P := by
  have hnoted := (appends_note s _).logs before (cleanup_logs input failed deleted s)
  unfold exhausted
  dsimp only
  split
  · refine (appends_note _ _).logs hnoted ?_
    intro a ha
    rw [List.mem_singleton.mp ha]
    exact resolved
  · exact hnoted

/-- The end of a run: what was logged on the way still stands, or a wave was returned. -/
theorem runEnds_logs (admits : Admits input world P) (failed : P .markFailed)
    (resolved : P .markResolved) (deleted : P .deleteSignalConsumer) {result : EngineResult}
    {s : EngineState} (h : RunEnds input world result s) :
    s.Logs P ∨ ∃ restart retryCount cs out, WaveStart input world restart retryCount cs ∧
      (waveDecision input world restart retryCount cs).1 = .return out ∧
      returnArm input (world.wave restart retryCount).gate out
        (decidedState input world restart retryCount cs) = (result, s) := by
  cases h with
  | preLoop e _ => exact Or.inl fun a ha => by cases ha
  | @wave restart retryCount cs _ _ start finish =>
      have hbefore := waveStart_logs admits start
      cases finish with
      | deadline budgetSecs =>
          refine Or.inl ((appends_note _ _).logs hbefore ?_)
          intro a ha
          rw [List.mem_singleton.mp ha]
          exact failed
      | checkpoint what => exact Or.inl (recordWave_logs admits retryCount _ hbefore)
      | returned out decided => exact Or.inr ⟨restart, retryCount, cs, out, start, decided, rfl⟩
      | failed e ctx decided =>
          refine Or.inl ((appends_note _ _).logs (decidedState_logs admits start ?_ hbefore)
            (cleanup_logs input failed deleted _))
          rw [decided]
          rfl
      | overflow score rationale ctx decided =>
          refine Or.inl ((appends_note _ _).logs (decidedState_logs admits start ?_ hbefore) ?_)
          · rw [decided]
            rfl
          · intro a ha
            rw [List.mem_singleton.mp ha]
            exact failed
  | @exhausted restart graft c s₁ _ _ point ended =>
      have hlogs := exhausted_logs input world restart graft c
        (exhaustionPoint_logs admits point) failed resolved deleted
      rw [ended] at hlogs
      exact Or.inl hlogs
  | @refused restart signal c s₁ ctx point _ =>
      exact Or.inl (guardRepair_logs admits signal (repairPoint_logs admits point))

/-! ## What an iteration adds -/

def EngineAction.isWave : EngineAction → Bool
  | .wave _ => true
  | _ => false

def EngineAction.isRepair : EngineAction → Bool
  | .repair _ _ => true
  | _ => false

/-- Neither a wave nor a repair. -/
def EngineAction.Plain (a : EngineAction) : Prop := a.isWave = false ∧ a.isRepair = false

def waveCount (log : List EngineAction) : Nat := log.countP EngineAction.isWave

theorem waveCount_append (a b : List EngineAction) :
    waveCount (a ++ b) = waveCount a + waveCount b := List.countP_append

theorem waveCount_plain {actions : List EngineAction} (h : ∀ a ∈ actions, a.Plain) :
    waveCount actions = 0 := by
  unfold waveCount
  rw [List.countP_eq_zero]
  intro a ha
  rw [(h a ha).1]
  exact Bool.false_ne_true

variable (input world)

theorem waveActions_count (restart retryCount : Nat) (cs : MapeKController × EngineState) :
    waveCount (waveActions input world restart retryCount cs) = 1 := by
  unfold waveActions
  rw [waveCount_append]
  have hposts : waveCount ((waveRun input world restart retryCount cs).postSelections.map
      .postSelection) = 0 := by
    refine waveCount_plain ?_
    intro a ha
    obtain ⟨call, -, rfl⟩ := List.mem_map.mp ha
    exact ⟨rfl, rfl⟩
  unfold waveCount at hposts ⊢
  rw [List.countP_cons_of_pos rfl, hposts]
  rfl

theorem deleteConsumer_plain (s : EngineState) : ∀ a ∈ deleteConsumer input s, a.Plain := by
  intro a ha
  unfold deleteConsumer at ha
  split at ha
  · rw [List.mem_singleton.mp ha]
    exact ⟨rfl, rfl⟩
  · cases ha

theorem gateActions_plain (out : EngineOutput) (gate : GateRecord) :
    ∀ a ∈ gateActions input out gate, a.Plain := by
  intro a ha
  unfold gateActions at ha
  simp only [List.cons_append, List.mem_cons, List.mem_append, List.mem_ite_nil_right,
    List.not_mem_nil, or_false] at ha
  rcases ha with rfl | ⟨-, rfl⟩ | rfl | ⟨-, rfl⟩ <;> exact ⟨rfl, rfl⟩

theorem cleanup_plain (s : EngineState) :
    ∀ a ∈ EngineAction.markFailed :: deleteConsumer input s, a.Plain :=
  cleanup_logs input ⟨rfl, rfl⟩ ⟨rfl, rfl⟩ s

theorem returnArm_appends (world : GateWorld) (out : EngineOutput) (s : EngineState) :
    ∃ actions, Appends s (returnArm input world out s).2 actions ∧ ∀ a ∈ actions, a.Plain := by
  have hresolve : ∀ s, ∃ actions, Appends s (resolveRun input world out s).2 actions ∧
      ∀ a ∈ actions, a.Plain := by
    intro s
    rcases resolveRun_cases input world out s with ⟨what, s', happends, heq⟩ | ⟨s', happends, heq⟩
    · rw [heq]
      exact ⟨[], happends, fun a ha => by cases ha⟩
    · rw [heq]
      exact ⟨_, happends, deleteConsumer_plain input s⟩
  have hgate := hitlGate_appends input world out s
  have hgatePlain := gateActions_plain input out (gateRecord input world s)
  rcases returnArm_cases input world out s with
    ⟨-, heq⟩ | ⟨-, -, heq⟩ | ⟨-, -, operatorId, note, heq⟩
  · rw [heq]
    exact hresolve s
  · rw [heq]
    obtain ⟨actions, happends, hplain⟩ := hresolve (hitlGate input world out s).2
    refine ⟨_, hgate.trans happends, ?_⟩
    intro a ha
    rcases List.mem_append.mp ha with h | h
    · exact hgatePlain a h
    · exact hplain a h
  · rw [heq]
    refine ⟨_, hgate.trans (appends_note _ _), ?_⟩
    intro a ha
    rcases List.mem_append.mp ha with h | h
    · exact hgatePlain a h
    · simp only [List.mem_cons, List.mem_ite_nil_right, List.not_mem_nil, or_false] at h
      rcases h with rfl | ⟨-, rfl⟩ <;> exact ⟨rfl, rfl⟩

/-- `s` is a later state of the same iteration, so many waves behind `s₀`. -/
def Adds (s₀ s : EngineState) (waves : Nat) : Prop :=
  ∃ actions, Appends s₀ s actions ∧ waveCount actions = waves

theorem Adds.trans {s s' s'' : EngineState} {m n : Nat} (h : Adds s s' m) (h' : Adds s' s'' n) :
    Adds s s'' (m + n) := by
  obtain ⟨a, ha, hm⟩ := h
  obtain ⟨b, hb, hn⟩ := h'
  exact ⟨a ++ b, ha.trans hb, by rw [waveCount_append, hm, hn]⟩

theorem Appends.adds {s s' : EngineState} {actions : List EngineAction}
    (h : Appends s s' actions) (plain : ∀ a ∈ actions, a.Plain) : Adds s s' 0 :=
  ⟨actions, h, waveCount_plain plain⟩

theorem decidedState_adds (restart retryCount : Nat) (cs : MapeKController × EngineState) :
    Adds cs.2 (decidedState input world restart retryCount cs) 1 :=
  ⟨_, decidedState_appends input world restart retryCount cs,
    waveActions_count input world restart retryCount cs⟩

theorem guardRepair_adds (signal : InstabilitySignal) (s : EngineState) :
    Adds s (guardRepair input signal s) 0 := by
  obtain ⟨actions, happends, hguard⟩ := guardRepair_appends input signal s
  refine happends.adds ?_
  intro a ha
  rw [hguard a ha]
  exact ⟨rfl, rfl⟩

theorem noteRepair_adds (s : EngineState) (constraintId : String) (outcome : RepairOutcome) :
    Adds s (s.note [.repair constraintId outcome]) 0 := ⟨_, appends_note s _, rfl⟩

theorem exhausted_adds (restart : Nat) (graft : Bool) (c : MapeKController) (s : EngineState) :
    Adds s (exhausted input world restart graft c s).2 0 := by
  have hnoted := (appends_note s _).adds (cleanup_plain input s)
  unfold exhausted
  dsimp only
  split
  · refine hnoted.trans ((appends_note _ _).adds ?_)
    intro a ha
    rw [List.mem_singleton.mp ha]
    exact ⟨rfl, rfl⟩
  · exact hnoted

variable {input world}

theorem waveStart_adds {restart retryCount : Nat} {cs : MapeKController × EngineState}
    (h : WaveStart input world restart retryCount cs) :
    ∃ s₀, iterationStart input world restart = some s₀ ∧ Adds s₀ cs.2 retryCount := by
  obtain ⟨s₀, hiter, -, hstart⟩ := h
  have hstep : ∀ i cs cs', Adds s₀ cs.2 i → waveBody input world restart i cs = .next cs' →
      Adds s₀ cs'.2 (i + 1) := by
    intro i cs cs' hadds hnext
    have hwave := waveBody_step input world restart i cs
    rw [hnext] at hwave
    cases hwave with
    | retry _ => exact hadds.trans (decidedState_adds input world restart i cs)
  have hinit : Adds s₀ s₀ 0 := ⟨[], ⟨(List.append_nil _).symm, rfl, rfl⟩, rfl⟩
  have hrun := roundStart_holds hstep hinit hstart
  rw [Nat.zero_add] at hrun
  exact ⟨s₀, hiter, hrun⟩

/-- The state in which a wave was decided. -/
theorem decided_adds {restart retryCount : Nat} {cs : MapeKController × EngineState}
    (h : WaveStart input world restart retryCount cs) :
    ∃ s₀, iterationStart input world restart = some s₀ ∧
      retryCount + 1 ≤ input.cfg.maxAutonomicRetries + 1 ∧
      Adds s₀ (decidedState input world restart retryCount cs) (retryCount + 1) := by
  obtain ⟨s₀, hiter, hadds⟩ := waveStart_adds h
  obtain ⟨-, -, hbound, -⟩ := h
  exact ⟨s₀, hiter, by omega, hadds.trans (decidedState_adds input world restart retryCount cs)⟩

theorem exhaustion_adds {restart : Nat} {graft : Bool} {c : MapeKController} {s : EngineState}
    (h : ExhaustionPoint input world restart graft c s) :
    ∃ s₀ waves, iterationStart input world restart = some s₀ ∧
      waves ≤ input.cfg.maxAutonomicRetries + 1 ∧ Adds s₀ s waves := by
  obtain ⟨n, cs, hwave, -, hstate⟩ := exhaustion_wave input world h
  obtain ⟨s₀, hiter, hbound, hadds⟩ := decided_adds hwave
  refine ⟨s₀, n + 1, hiter, hbound, ?_⟩
  rcases hstate with rfl | ⟨signal, score, corpus', -, -, rfl⟩
  · exact hadds
  · exact (hadds.trans (guardRepair_adds input signal _)).trans (noteRepair_adds _ _ _)

/-- A run ends in its last iteration, which has run at most one wave for each retry. -/
theorem runEnds_adds {result : EngineResult} {s : EngineState}
    (h : RunEnds input world result s) :
    s = initialState input world ∨
      ∃ restart s₀ waves, iterationStart input world restart = some s₀ ∧
        waves ≤ input.cfg.maxAutonomicRetries + 1 ∧ Adds s₀ s waves := by
  cases h with
  | preLoop e _ => exact Or.inl rfl
  | @wave restart retryCount cs _ _ start finish =>
      right
      obtain ⟨s₀, hiter, hadds⟩ := waveStart_adds start
      obtain ⟨s₁, hiter₁, hbound, hdecided⟩ := decided_adds start
      rw [hiter] at hiter₁
      cases hiter₁
      cases finish with
      | deadline budgetSecs =>
          refine ⟨restart, s₀, retryCount, hiter, by omega,
            hadds.trans ⟨_, appends_note _ _, rfl⟩⟩
      | checkpoint what =>
          have hposts : waveCount (.wave retryCount ::
              (waveRun input world restart retryCount cs).postSelections.map
                EngineAction.postSelection) = 1 := by
            have hwave := waveActions_count input world restart retryCount cs
            unfold waveActions at hwave
            rw [waveCount_append] at hwave
            exact hwave
          exact ⟨restart, s₀, retryCount + 1, hiter, hbound,
            hadds.trans ⟨_, recordWave_appends _ _ _, hposts⟩⟩
      | returned out decided =>
          obtain ⟨actions, happends, hplain⟩ := returnArm_appends input
            (world.wave restart retryCount).gate out
            (decidedState input world restart retryCount cs)
          exact ⟨restart, s₀, retryCount + 1, hiter, hbound,
            hdecided.trans (happends.adds hplain)⟩
      | failed e ctx decided =>
          exact ⟨restart, s₀, retryCount + 1, hiter, hbound,
            hdecided.trans ((appends_note _ _).adds (cleanup_plain input _))⟩
      | overflow score rationale ctx decided =>
          exact ⟨restart, s₀, retryCount + 1, hiter, hbound,
            hdecided.trans ⟨_, appends_note _ _, rfl⟩⟩
  | @exhausted restart graft c s₁ _ _ point ended =>
      right
      obtain ⟨s₀, waves, hiter, hbound, hadds⟩ := exhaustion_adds point
      have hexhausted := exhausted_adds input world restart graft c s₁
      rw [ended] at hexhausted
      exact ⟨restart, s₀, waves, hiter, hbound, hadds.trans hexhausted⟩
  | @refused restart signal c s₁ ctx point _ =>
      right
      obtain ⟨n, cs, hwave, -, rfl⟩ := repairPoint_wave input world point
      obtain ⟨s₀, hiter, hbound, hadds⟩ := decided_adds hwave
      exact ⟨restart, s₀, n + 1, hiter, hbound,
        hadds.trans (guardRepair_adds input signal _)⟩

end ControlPlane.Source.Engine
