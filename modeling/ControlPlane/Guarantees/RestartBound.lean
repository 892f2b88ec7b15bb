import ControlPlane.Source.Engine.EngineLogs

/-!
# Bound on spec-repair restarts

The restart loop has no bound of its own. It runs at most two iterations, and
with repair switched off never touches the corpus, exactly when no repair goes
through where the guard of the repair handler fires: the guard only reports.
-/
namespace ControlPlane.Guarantees.RestartBound

open Source.Engine Source.MapeK Source.Config Source.Constraints Lib

/-! ## The restart counter -/

/-- The counter is the number of the iteration. -/
theorem restarts_eq {input : EngineInput} {world : EngineWorld} {restart : Nat}
    {s : EngineState} (h : iterationStart input world restart = some s) :
    s.specAmbiguousRestarts = restart := by
  induction restart generalizing s with
  | zero =>
      rw [iterationStart_zero h]
      rfl
  | succ restart ih =>
      obtain ⟨signal, c, s₁, version, rewritten, corpus', hpoint, -, rfl⟩ :=
        iterationStart_succ input world h
      obtain ⟨n, cs, hwave, -, rfl⟩ := repairPoint_wave input world hpoint
      obtain ⟨s₀, hiter, -, actions, happends, -⟩ := decided_adds hwave
      have hcount := ih hiter
      have hsame := happends.restarts
      show (decidedState input world restart n cs).specAmbiguousRestarts + 1 = restart + 1
      omega

theorem repairPoint_restarts {input : EngineInput} {world : EngineWorld} {restart : Nat}
    {signal : InstabilitySignal} {c : MapeKController} {s : EngineState}
    (h : RepairPoint input world restart signal c s) : s.specAmbiguousRestarts = restart := by
  obtain ⟨n, cs, hwave, -, rfl⟩ := repairPoint_wave input world h
  obtain ⟨s₀, hiter, -, actions, happends, -⟩ := decided_adds hwave
  rw [happends.restarts]
  exact restarts_eq hiter

/-- A repair that goes through starts the next iteration. -/
theorem iterationStart_of_repaired {input : EngineInput} {world : EngineWorld} {restart : Nat}
    {signal : InstabilitySignal} {c : MapeKController} {s : EngineState} {version : Nat}
    {rewritten : String} {corpus' : List ConstraintDoc}
    (point : RepairPoint input world restart signal c s)
    (attempt : RepairAttempt input world restart signal s.constraintCorpus
      (.repaired version rewritten) corpus') :
    ∃ s', iterationStart input world (restart + 1) = some s' ∧
      .repair signal.constraintId (.repaired version rewritten) ∈ s'.log := by
  obtain ⟨s₀, hiter, hloop⟩ := point
  have hbody : ∃ s', restartBody input world restart s₀ = .next s' ∧
      .repair signal.constraintId (.repaired version rewritten) ∈ s'.log := by
    unfold restartBody
    rw [hloop]
    rcases repairHandler_cases input world restart signal c s with
      ⟨hrefused, -⟩ | ⟨version₁, rewritten₁, corpus₁, hattempt, heq⟩ | ⟨score, corpus₁, hattempt, -⟩
    · exact absurd hrefused attempt.not_refused
    · cases attempt.unique hattempt
      exact ⟨_, heq, List.mem_append_right _ (List.mem_singleton.mpr rfl)⟩
    · cases attempt.unique hattempt
  obtain ⟨s', hnext, hmem⟩ := hbody
  refine ⟨s', ?_, hmem⟩
  unfold iterationStart at hiter ⊢
  split at hiter
  · cases hiter
  · refine roundStart_succ_eq_some.mpr ⟨s₀, hiter, ?_⟩
    rw [Nat.zero_add]
    exact hnext

/-! ## The guard -/

/-- Where the guard fires, no repair goes through: the handler refuses before any
attempt, or repair is switched on and the attempt fails. -/
def GuardStands (input : EngineInput) (world : EngineWorld) : Prop :=
  ∀ restart signal c s, RepairPoint input world restart signal c s →
    1 ≤ s.specAmbiguousRestarts ∨ input.cfg.gapK1.autoRepairEnabled = false →
    RepairRefused input signal s.constraintCorpus ∨
      (input.cfg.gapK1.autoRepairEnabled = true ∧ ∃ score corpus',
        RepairAttempt input world restart signal s.constraintCorpus (.failed score) corpus')

/-- No repair was attempted and the corpus is the one of the task. -/
def Untouched (input : EngineInput) (s : EngineState) : Prop :=
  s.Logs (fun a => a.isRepair = false) ∧ s.constraintCorpus = input.constraintCorpus

/-- At most two iterations, hence at most twice the waves of one; and with repair
switched off nothing is repaired. The run returns. -/
structure RestartsBounded (input : EngineInput) (world : EngineWorld) : Prop where
  iterations : iterationStart input world 2 = none
  switchedOff : input.cfg.gapK1.autoRepairEnabled = false →
    (∀ restart s, iterationStart input world restart = some s → Untouched input s) ∧
      ∀ fuel result s, runOffline input world fuel = some (result, s) → Untouched input s
  waves : ∃ result s, runOffline input world 2 = some (result, s) ∧
    waveCount s.log ≤ 2 * (input.cfg.maxAutonomicRetries + 1)

section Stands

variable {input : EngineInput} {world : EngineWorld}

/-- Behind a guard that fires there is no next iteration. -/
theorem GuardStands.last (stands : GuardStands input world) {restart : Nat}
    (fires : 1 ≤ restart ∨ input.cfg.gapK1.autoRepairEnabled = false) :
    iterationStart input world (restart + 1) = none := by
  cases hnext : iterationStart input world (restart + 1) with
  | none => rfl
  | some s' =>
      obtain ⟨signal, c, s, version, rewritten, corpus', hpoint, hattempt, -⟩ :=
        iterationStart_succ input world hnext
      have hcount := repairPoint_restarts hpoint
      rcases stands restart signal c s hpoint (by rw [hcount]; exact fires) with
        hrefused | ⟨-, score, corpus₁, hfailed⟩
      · exact absurd hrefused hattempt.not_refused
      · cases hattempt.unique hfailed

theorem GuardStands.no_attempt (stands : GuardStands input world)
    (off : input.cfg.gapK1.autoRepairEnabled = false) {restart : Nat}
    {signal : InstabilitySignal} {c : MapeKController} {s : EngineState}
    {outcome : RepairOutcome} {corpus' : List ConstraintDoc}
    (point : RepairPoint input world restart signal c s) :
    ¬ RepairAttempt input world restart signal s.constraintCorpus outcome corpus' := by
  intro hattempt
  rcases stands restart signal c s point (Or.inr off) with hrefused | ⟨hon, -⟩
  · exact hattempt.not_refused hrefused
  · rw [off] at hon
    cases hon

theorem GuardStands.admits (stands : GuardStands input world)
    (off : input.cfg.gapK1.autoRepairEnabled = false) :
    Admits input world (fun a => a.isRepair = false) where
  wave := fun _ => rfl
  postSelection := fun _ => rfl
  decision := fun _ _ => rfl
  repairGuard := fun _ => rfl
  repair := fun hpoint hattempt => absurd hattempt (stands.no_attempt off hpoint)

/-- Switched off, only the first iteration runs. -/
theorem GuardStands.only_first (stands : GuardStands input world)
    (off : input.cfg.gapK1.autoRepairEnabled = false) {restart : Nat} {s : EngineState}
    (h : iterationStart input world restart = some s) : s = initialState input world := by
  cases restart with
  | zero => exact iterationStart_zero h
  | succ restart =>
      rw [stands.last (Or.inr off)] at h
      cases h

theorem GuardStands.run_untouched (stands : GuardStands input world)
    (off : input.cfg.gapK1.autoRepairEnabled = false) {result : EngineResult} {s : EngineState}
    (h : RunEnds input world result s) : Untouched input s := by
  constructor
  · rcases runEnds_logs (stands.admits off) rfl rfl rfl h with
      hlogs | ⟨restart, retryCount, cs, out, hwave, -, hreturn⟩
    · exact hlogs
    · have hbefore := waveStart_logs (stands.admits off) hwave
      have hdecided : (decidedState input world restart retryCount cs).Logs
          (fun a => a.isRepair = false) := by
        refine (decidedState_appends input world restart retryCount cs).logs hbefore ?_
        intro a ha
        unfold waveActions at ha
        simp only [List.cons_append, List.mem_cons, List.mem_append, List.mem_map,
          List.not_mem_nil, or_false] at ha
        rcases ha with rfl | ⟨call, -, rfl⟩ | rfl <;> rfl
      obtain ⟨actions, happends, hplain⟩ := returnArm_appends input
        (world.wave restart retryCount).gate out (decidedState input world restart retryCount cs)
      rw [hreturn] at happends
      exact happends.logs hdecided fun a ha => (hplain a ha).2
  · rcases runEnds_adds h with rfl | ⟨restart, s₀, waves, hiter, -, actions, happends, -⟩
    · rfl
    · rw [happends.corpus, stands.only_first off hiter]
      rfl

/-- The waves of the iterations before the one that starts. -/
theorem iterationStart_waves {restart : Nat} {s : EngineState}
    (h : iterationStart input world restart = some s) :
    waveCount s.log ≤ restart * (input.cfg.maxAutonomicRetries + 1) := by
  induction restart generalizing s with
  | zero =>
      rw [iterationStart_zero h]
      simp [initialState, waveCount]
  | succ restart ih =>
      obtain ⟨signal, c, s₁, version, rewritten, corpus', hpoint, -, rfl⟩ :=
        iterationStart_succ input world h
      obtain ⟨n, cs, hwave, -, rfl⟩ := repairPoint_wave input world hpoint
      obtain ⟨s₀, hiter, hbound, hadds⟩ := decided_adds hwave
      obtain ⟨actions, happends, hcount⟩ :=
        (hadds.trans (guardRepair_adds input signal _)).trans
          (noteRepair_adds _ signal.constraintId (.repaired version rewritten))
      have hlog := happends.log
      have hbefore := ih hiter
      rw [Nat.succ_mul]
      show waveCount ((guardRepair input signal
        (decidedState input world restart n cs)).note _).log ≤ _
      rw [hlog, waveCount_append]
      omega

theorem GuardStands.run_waves (stands : GuardStands input world) {result : EngineResult}
    {s : EngineState} (h : RunEnds input world result s) :
    waveCount s.log ≤ 2 * (input.cfg.maxAutonomicRetries + 1) := by
  rcases runEnds_adds h with rfl | ⟨restart, s₀, waves, hiter, hbound, actions, happends, hcount⟩
  · simp [initialState, waveCount]
  · have hlt : restart < 2 := by
      by_contra hge
      have hlast : iterationStart input world (restart - 1 + 1) = none :=
        stands.last (Or.inl (by omega))
      rw [Nat.sub_add_cancel (by omega), hiter] at hlast
      cases hlast
    have hbefore := iterationStart_waves hiter
    rw [happends.log, waveCount_append]
    have hmul : restart * (input.cfg.maxAutonomicRetries + 1) ≤
        1 * (input.cfg.maxAutonomicRetries + 1) := Nat.mul_le_mul_right _ (by omega)
    omega

theorem runOffline_two (h : iterationStart input world 2 = none) :
    ∃ result s, runOffline input world 2 = some (result, s) := by
  unfold iterationStart at h
  unfold runOffline
  cases hpre : world.preLoopError with
  | some e => exact ⟨_, _, rfl⟩
  | none =>
      rw [hpre] at h
      cases hloop : forRounds (restartBody input world) 2 0 (initialState input world) with
      | next s =>
          rw [forRounds_eq_next.mp hloop] at h
          cases h
      | stop ended => exact ⟨ended.1, ended.2, rfl⟩

end Stands

/-- **Bounded restarts.** -/
theorem restarts_bounded_iff (input : EngineInput) (world : EngineWorld) :
    RestartsBounded input world ↔ GuardStands input world := by
  constructor
  · intro bounded restart signal c s hpoint hfires
    by_cases hrefused : RepairRefused input signal s.constraintCorpus
    · exact Or.inl hrefused
    · right
      rcases repairHandler_cases input world restart signal c s with
        ⟨hrefuses, -⟩ | ⟨version, rewritten, corpus', hattempt, -⟩ | ⟨score, corpus', hattempt, -⟩
      · exact absurd hrefuses hrefused
      · -- the repair went through, so another iteration starts
        exfalso
        obtain ⟨s', hnext, hmem⟩ := iterationStart_of_repaired hpoint hattempt
        rcases hfires with hcount | hoff
        · rw [repairPoint_restarts hpoint] at hcount
          have htwo : ∃ s'', iterationStart input world 2 = some s'' := by
            unfold iterationStart at hnext ⊢
            split at hnext
            · cases hnext
            · exact roundStart_of_le (by omega) hnext
          obtain ⟨s'', htwo⟩ := htwo
          rw [bounded.iterations] at htwo
          cases htwo
        · have hlog := ((bounded.switchedOff hoff).1 _ _ hnext).1 _ hmem
          cases hlog
      · cases hauto : input.cfg.gapK1.autoRepairEnabled with
        | true => exact ⟨rfl, score, corpus', hattempt⟩
        | false =>
            exfalso
            have hrun := runOffline_of_exhaustion (.repair hpoint hattempt)
            obtain ⟨actions, happends, -⟩ := exhausted_adds input world restart false c
              ((guardRepair input signal s).note [.repair signal.constraintId (.failed score)])
            have hmem : EngineAction.repair signal.constraintId (.failed score) ∈
                (exhausted input world restart false c ((guardRepair input signal s).note
                  [.repair signal.constraintId (.failed score)])).2.log := by
              rw [happends.log]
              exact List.mem_append_left _
                (List.mem_append_right _ (List.mem_singleton.mpr rfl))
            have hlog := ((bounded.switchedOff hauto).2 _ _ _ hrun).1 _ hmem
            cases hlog
  · intro stands
    have htwo : iterationStart input world 2 = none := stands.last (Or.inl le_rfl)
    refine ⟨htwo, ?_, ?_⟩
    · intro off
      constructor
      · intro restart s hiter
        rw [stands.only_first off hiter]
        exact ⟨fun a ha => (by cases ha), rfl⟩
      · intro fuel result s hrun
        exact stands.run_untouched off (runOffline_ends input world hrun)
    · obtain ⟨result, s, hrun⟩ := runOffline_two htwo
      exact ⟨result, s, hrun, stands.run_waves (runOffline_ends input world hrun)⟩

/-- The instability detector is on and automated repair is off. -/
def unrepairedInput : EngineInput :=
  { plainInput with
    cfg := { H2AIConfig.reference with gapK1 := ⟨true, false, 1 / 10, 9 / 10, 5, 3⟩ }
    constraintCorpus := [sessionDoc] }

/-- The verifier changes its mind in every iteration, and the advisor has a rewrite. -/
def rewritingWorld : EngineWorld :=
  { plainWorld (prunedWave none) with
    wave := fun _ retryCount => prunedWave (some
      (if retryCount = 0 then "lifetime missing" else "issuer unclear"))
    repair := fun _ => ⟨some "names the signed token", fun _ => 95 / 100, 0⟩ }

/-- With repair switched off the check is rewritten all the same, and a third
iteration starts. -/
theorem switched_off_repairs_restart :
    ¬ RestartsBounded unrepairedInput rewritingWorld := by
  intro bounded
  have hthird : (iterationStart unrepairedInput rewritingWorld 2).map
      (fun s => (s.constraintCorpus.map (·.version), s.log.any EngineAction.isRepair)) =
        some ([3], true) := by
    decide +kernel
  rw [bounded.iterations] at hthird
  cases hthird

end ControlPlane.Guarantees.RestartBound
