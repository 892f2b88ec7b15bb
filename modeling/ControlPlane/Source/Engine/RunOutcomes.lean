import ControlPlane.Source.Engine.EngineLogs
import ControlPlane.Source.MapeK.ExitRoutes

/-!
# Controllers of a run

The controller the engine holds at any point of a run is one that calls of the
engine have led to from `new`, for the corpus of the iteration. What is shown of
every reachable controller therefore holds in every wave of `run_offline`.
-/
namespace ControlPlane.Source.Engine

open Constraints Config MapeK Lib

/-- Calls of the engine lead from `new` to `c`. -/
def Reachable (lib : ControllerLib) (cfg : H2AIConfig) (init : ControllerInit)
    (corpus : List ConstraintDoc) (c : MapeKController) : Prop :=
  ∃ ops, c = replay lib (MapeKController.new cfg init corpus) ops

section Reach

variable {lib : ControllerLib} {cfg : H2AIConfig} {init : ControllerInit}
  {corpus : List ConstraintDoc} {c : MapeKController}

theorem Reachable.step (h : Reachable lib cfg init corpus c) (op : ControllerOp) :
    Reachable lib cfg init corpus (applyOp lib c op) := by
  obtain ⟨ops, rfl⟩ := h
  refine ⟨ops ++ [op], ?_⟩
  unfold replay
  rw [List.foldl_append]
  rfl

theorem Reachable.taskPart (h : Reachable lib cfg init corpus c) :
    c.taskPart = (MapeKController.new cfg init corpus).taskPart := by
  obtain ⟨ops, rfl⟩ := h
  exact replay_taskPart lib _ ops

/-- Grafting is viable exactly when the corpus has a binary check. -/
theorem Reachable.viable_eq (h : Reachable lib cfg init corpus c) :
    c.corpusSynthesisViable = !(corpus.flatMap (·.binaryChecks)).isEmpty := by
  have hviable : c.corpusSynthesisViable = corpus.any fun d => !d.binaryChecks.isEmpty :=
    congrArg TaskPart.corpusSynthesisViable h.taskPart
  rw [hviable, Bool.eq_iff_iff]
  simp

theorem Reachable.binaryChecks_eq (h : Reachable lib cfg init corpus c) :
    c.binaryChecks = corpus.flatMap (·.binaryChecks) :=
  congrArg TaskPart.binaryChecks h.taskPart

end Reach

variable (input : EngineInput) (world : EngineWorld)

/-- A controller the run may hold while it works on `corpus`. -/
def HeldFor (corpus : List ConstraintDoc) (c : MapeKController) : Prop :=
  Reachable input.lib input.cfg input.init corpus c

theorem freshController_held (corpus : List ConstraintDoc) :
    HeldFor input corpus (freshController input corpus) := by
  unfold freshController
  cases input.probeResult with
  | none => exact ⟨[], rfl⟩
  | some probe => exact ⟨[.setProbeResult probe], rfl⟩

variable {input world} {restart retryCount : Nat} {cs : MapeKController × EngineState}
  {corpus : List ConstraintDoc}

variable (world restart retryCount) in
theorem observedWave_held (h : HeldFor input corpus cs.1) :
    HeldFor input corpus (observedWave input world restart retryCount cs) := by
  have hobserved := h.step
    (.observe (waveRun input world restart retryCount cs).result.events retryCount)
  unfold observedWave oomGuard
  dsimp only
  split
  · exact (hobserved.step .markOomAbort).step (.observeWaveTokens _)
  · exact hobserved.step (.observeWaveTokens _)

variable (world restart retryCount) in
theorem decisionPoint_held (h : HeldFor input corpus cs.1) :
    HeldFor input corpus (decisionPoint input world restart retryCount cs).1 := by
  have hobserved := observedWave_held world restart retryCount h
  unfold decisionPoint waveWindow
  dsimp only
  split
  · split
    · split
      · exact hobserved.step (.injectWaveContinue _ _)
      · exact hobserved
    · exact hobserved
  · exact hobserved

theorem decidedController_held (h : HeldFor input corpus cs.1) :
    HeldFor input corpus (decidedController input world restart retryCount cs) :=
  ((decisionPoint_held world restart retryCount h).step (.decide _ retryCount _)).step .takePendingAmbiguityEvents

/-- The controller of every wave that is started. -/
theorem waveStart_held (h : WaveStart input world restart retryCount cs) :
    HeldFor input cs.2.constraintCorpus cs.1 := by
  obtain ⟨s₀, -, -, hstart⟩ := h
  have hstep : ∀ i cs cs', HeldFor input cs.2.constraintCorpus cs.1 →
      waveBody input world restart i cs = .next cs' →
      HeldFor input cs'.2.constraintCorpus cs'.1 := by
    intro i cs cs' hheld hnext
    have hwave := waveBody_step input world restart i cs
    rw [hnext] at hwave
    cases hwave with
    | retry _ =>
        rw [(decidedState_appends input world restart i cs).corpus]
        exact decidedController_held hheld
  exact roundStart_holds (I := fun _ cs => HeldFor input cs.2.constraintCorpus cs.1) hstep
    (freshController_held input s₀.constraintCorpus) hstart

/-! ## Decided waves -/

variable (input world restart retryCount cs) in
/-- The wave gets as far as its decision. -/
def WaveDecided : Prop :=
  (input.cfg.taskDeadlineSecs.isSome && (world.wave restart retryCount).deadlinePassed) = false ∧
    checkpointError input
      (recordWave cs.2 retryCount (waveRun input world restart retryCount cs))
      (world.wave restart retryCount).checkpointWritten = none

theorem waveBody_decided (h : WaveDecided input world restart retryCount cs) :
    waveBody input world restart retryCount cs =
      decisionArm input (world.wave restart retryCount)
        (waveDecision input world restart retryCount cs).1
        (decidedController input world restart retryCount cs)
        (decidedState input world restart retryCount cs) := by
  unfold waveBody
  simp only [h.1, Bool.false_eq_true, ↓reduceIte, h.2]

/-- Only a decided wave asks for a graft. -/
theorem waveBody_graft {c : MapeKController} {s : EngineState}
    (h : waveBody input world restart retryCount cs = .stop (.graft c s)) :
    WaveDecided input world restart retryCount cs ∧
      (∃ score rationale, (waveDecision input world restart retryCount cs).1 =
        .complexityOverflow score rationale true) ∧
      s = decidedState input world restart retryCount cs := by
  unfold waveBody at h
  dsimp only at h
  split at h
  · cases h
  · rename_i hdeadline
    split at h
    · cases h
    · rename_i hcheckpoint
      refine ⟨⟨Bool.not_eq_true _ ▸ hdeadline, hcheckpoint⟩, ?_⟩
      unfold decisionArm at h
      split at h
      · cases h
      · cases h
      · cases h
      · cases h
      · rename_i score rationale graftFirst hdecision
        split at h
        · rename_i hgraft
          cases h
          rw [hdecision, hgraft]
          exact ⟨⟨score, rationale, rfl⟩, rfl⟩
        · cases h

end ControlPlane.Source.Engine

/-!
# Outcomes of a run

`run_offline` returns with a result and a state exactly when one of the exits of
`RunEnd` is reached. Unlike `RunEnds`, each exit carries what made the run take it
and the context it returns, so that the guarantees about failures can tell the
exits apart and go back from an exit to the run.
The first section has the rule for what holds at every point of a run.
-/

/-!
## Invariants of a run

An invariant rule for the state of a run: what holds in front of the restart loop
and is kept by every decided wave and by every successful repair holds at every
point of the run. The subscription to signals is a first use of it.
-/
namespace ControlPlane.Source.Engine

open Constraints MapeK Lib

variable (input : EngineInput) (world : EngineWorld)

/-- The state behind a successful repair. -/
def repairedState (signal : InstabilitySignal) (s : EngineState) (outcome : RepairOutcome)
    (corpus' : List ConstraintDoc) : EngineState :=
  { (guardRepair input signal s).note [.repair signal.constraintId outcome] with
    constraintCorpus := corpus'
    specAmbiguousRestarts := s.specAmbiguousRestarts + 1 }

/-- `I` is kept by everything between two points of a run. -/
structure RunInvariant (I : EngineState → Prop) : Prop where
  init : I (initialState input world)
  wave : ∀ {restart retryCount cs}, WaveStart input world restart retryCount cs → I cs.2 →
    I (decidedState input world restart retryCount cs)
  repaired : ∀ {restart signal c s outcome corpus'}, RepairPoint input world restart signal c s →
    I s → I (repairedState input signal s outcome corpus')

variable {input world} {I : EngineState → Prop}

namespace RunInvariant

theorem rounds (inv : RunInvariant input world I) {restart : Nat} {s₀ : EngineState}
    (start : iterationStart input world restart = some s₀) (before : I s₀) {retryCount : Nat}
    (bound : retryCount ≤ input.cfg.maxAutonomicRetries) {cs : MapeKController × EngineState}
    (h : roundStart (waveBody input world restart) 0
      (freshController input s₀.constraintCorpus, s₀) retryCount = some cs) : I cs.2 := by
  induction retryCount generalizing cs with
  | zero =>
      cases h
      exact before
  | succ retryCount ih =>
      obtain ⟨cs₁, hstart, -, rfl⟩ := waveStart_succ input world h
      exact inv.wave ⟨s₀, start, by omega, hstart⟩ (ih (by omega) hstart)

theorem iterationStart (inv : RunInvariant input world I) {restart : Nat} {s : EngineState}
    (h : Engine.iterationStart input world restart = some s) : I s := by
  induction restart generalizing s with
  | zero =>
      rw [iterationStart_zero h]
      exact inv.init
  | succ restart ih =>
      obtain ⟨signal, c, s₁, version, rewritten, corpus', hpoint, -, rfl⟩ :=
        iterationStart_succ input world h
      obtain ⟨n, cs, ⟨s₀, hiter, hn, hstart⟩, -, rfl⟩ := repairPoint_wave input world hpoint
      have hwave := inv.rounds hiter (ih hiter) hn hstart
      exact inv.repaired hpoint (inv.wave ⟨s₀, hiter, hn, hstart⟩ hwave)

theorem waveStart (inv : RunInvariant input world I) {restart retryCount : Nat}
    {cs : MapeKController × EngineState} (h : WaveStart input world restart retryCount cs) :
    I cs.2 := by
  obtain ⟨s₀, hiter, hn, hstart⟩ := h
  exact inv.rounds hiter (inv.iterationStart hiter) hn hstart

theorem decided (inv : RunInvariant input world I) {restart retryCount : Nat}
    {cs : MapeKController × EngineState} (h : WaveStart input world restart retryCount cs) :
    I (decidedState input world restart retryCount cs) := inv.wave h (inv.waveStart h)

end RunInvariant

/-! ## The subscription -/

/-- Signals are subscribed to through NATS only. -/
def SubNeedsNats (input : EngineInput) (s : EngineState) : Prop :=
  s.signalSub = true → input.nats = true

theorem refreshSub_needsNats {s : EngineState} (h : SubNeedsNats input s) (subscribes : Bool) :
    SubNeedsNats input (refreshSub input s subscribes) := by
  intro hsub
  simp only [refreshSub, Bool.or_eq_true, Bool.and_eq_true] at hsub
  rcases hsub with ⟨hnats, -⟩ | hold
  · exact hnats
  · exact h hold

theorem waveWindow_needsNats {s : EngineState} (h : SubNeedsNats input s) (ww : WaveWorld)
    (c : MapeKController) : SubNeedsNats input (waveWindow input ww c s).2 := by
  unfold waveWindow
  dsimp only
  split
  · split
    · exact refreshSub_needsNats h ww.windowSubscribes
    · exact refreshSub_needsNats h ww.windowSubscribes
  · exact h

theorem guardRepair_signalSub (signal : InstabilitySignal) (s : EngineState) :
    (guardRepair input signal s).signalSub = s.signalSub := by
  unfold guardRepair
  split <;> rfl

theorem subNeedsNats_invariant : RunInvariant input world (SubNeedsNats input) where
  init := by
    intro hsub
    simp only [initialState, Bool.and_eq_true] at hsub
    exact hsub.1.1
  wave {restart retryCount cs} _ h := by
    have hrecorded : SubNeedsNats input
        (recordWave cs.2 retryCount (waveRun input world restart retryCount cs)) := h
    exact waveWindow_needsNats hrecorded (world.wave restart retryCount)
      (observedWave input world restart retryCount cs)
  repaired {restart signal c s outcome corpus'} _ h := by
    intro hsub
    refine h ?_
    rw [← guardRepair_signalSub signal s]
    exact hsub

theorem exhaustion_needsNats {restart : Nat} {graft : Bool} {c : MapeKController}
    {s : EngineState} (h : ExhaustionPoint input world restart graft c s) :
    SubNeedsNats input s := by
  have hinv : RunInvariant input world (SubNeedsNats input) := subNeedsNats_invariant
  obtain ⟨n, cs, hwave, -, hstate⟩ := exhaustion_wave input world h
  rcases hstate with rfl | ⟨signal, score, corpus', -, -, rfl⟩
  · exact hinv.decided hwave
  · intro hsub
    refine hinv.decided hwave ?_
    rw [← guardRepair_signalSub signal]
    exact hsub

end ControlPlane.Source.Engine

namespace ControlPlane.Source.Engine

open Constraints MapeK Lib

variable (input : EngineInput) (world : EngineWorld)

/-! ## Waves that end the run -/

section Wave

variable (restart retryCount : Nat) (cs : MapeKController × EngineState)

def deadlineOver : Bool :=
  input.cfg.taskDeadlineSecs.isSome && (world.wave restart retryCount).deadlinePassed

/-- The engine's state once the wave is recorded. -/
def recordedState : EngineState :=
  recordWave cs.2 retryCount (waveRun input world restart retryCount cs)

inductive WaveEnd : EngineResult → EngineState → Prop where
  | deadline (passed : deadlineOver input world restart retryCount = true) :
      WaveEnd
        (.error (.deadlineExceeded (input.cfg.taskDeadlineSecs.getD 0), emptyContext))
        (cs.2.note [.markFailed])
  | checkpoint (inTime : deadlineOver input world restart retryCount = false) (e : EngineError)
      (fails : checkpointError input (recordedState input world restart retryCount cs)
        (world.wave restart retryCount).checkpointWritten = some e) :
      WaveEnd (.error (e, emptyContext)) (recordedState input world restart retryCount cs)
  | returned (decided : WaveDecided input world restart retryCount cs) (out : EngineOutput)
      (returns : (waveDecision input world restart retryCount cs).1 = .return out) :
      WaveEnd
        (returnArm input (world.wave restart retryCount).gate out
          (decidedState input world restart retryCount cs)).1
        (returnArm input (world.wave restart retryCount).gate out
          (decidedState input world restart retryCount cs)).2
  | failed (decided : WaveDecided input world restart retryCount cs) (e : EngineError)
      (ctx : EngineRunContext)
      (fails : (waveDecision input world restart retryCount cs).1 = .fail e ctx) :
      WaveEnd (.error (e, ctx))
        ((decidedState input world restart retryCount cs).note
          (.markFailed :: deleteConsumer input (decidedState input world restart retryCount cs)))
  | overflow (decided : WaveDecided input world restart retryCount cs) (score : Nat)
      (rationale : String)
      (overflows : (waveDecision input world restart retryCount cs).1 =
        .complexityOverflow score rationale false) :
      WaveEnd
        (.error (.maxRetriesExhausted,
          failureContext (decidedController input world restart retryCount cs)
            (decidedState input world restart retryCount cs)))
        ((decidedState input world restart retryCount cs).note [.markFailed])

variable {input world restart retryCount cs} in
theorem waveBody_finish_iff {result : EngineResult} {s : EngineState} :
    waveBody input world restart retryCount cs = .stop (.finish result s) ↔
      WaveEnd input world restart retryCount cs result s := by
  constructor
  · intro h
    cases hdeadline : deadlineOver input world restart retryCount with
    | true =>
        have hpassed := hdeadline
        unfold deadlineOver at hdeadline
        unfold waveBody at h
        simp only [hdeadline, ↓reduceIte, Round.stop.injEq, WaveExit.finish.injEq] at h
        obtain ⟨rfl, rfl⟩ := h
        exact .deadline hpassed
    | false =>
        cases hcheckpoint : checkpointError input (recordedState input world restart retryCount cs)
            (world.wave restart retryCount).checkpointWritten with
        | some e =>
            have hfails := hcheckpoint
            have hinTime := hdeadline
            unfold deadlineOver at hdeadline
            unfold recordedState at hcheckpoint
            unfold waveBody at h
            simp only [hdeadline, Bool.false_eq_true, ↓reduceIte, hcheckpoint, Round.stop.injEq,
              WaveExit.finish.injEq] at h
            obtain ⟨rfl, rfl⟩ := h
            exact .checkpoint hinTime e hfails
        | none =>
            have hdecided : WaveDecided input world restart retryCount cs :=
              ⟨hdeadline, hcheckpoint⟩
            rw [waveBody_decided hdecided] at h
            cases hdecision : (waveDecision input world restart retryCount cs).1 with
            | «return» out =>
                rw [hdecision] at h
                cases h
                exact .returned hdecided out hdecision
            | retry =>
                rw [hdecision] at h
                cases h
            | fail e ctx =>
                rw [hdecision] at h
                cases h
                exact .failed hdecided e ctx hdecision
            | specAmbiguous signal =>
                rw [hdecision] at h
                cases h
            | complexityOverflow score rationale graftFirst =>
                rw [hdecision] at h
                cases graftFirst with
                | true => cases h
                | false =>
                    cases h
                    exact .overflow hdecided score rationale hdecision
  · intro h
    cases h with
    | deadline passed =>
        unfold deadlineOver at passed
        unfold waveBody
        simp only [passed, ↓reduceIte]
    | checkpoint inTime e fails =>
        unfold deadlineOver at inTime
        unfold recordedState at fails
        unfold waveBody
        simp only [inTime, Bool.false_eq_true, ↓reduceIte, fails]
        rfl
    | returned decided out returns =>
        rw [waveBody_decided decided, returns]
        rfl
    | failed decided e ctx fails =>
        rw [waveBody_decided decided, fails]
        rfl
    | overflow decided score rationale overflows =>
        rw [waveBody_decided decided, overflows]
        rfl

end Wave

/-! ## Exits of the run -/

inductive RunEnd : EngineResult → EngineState → Prop where
  | preLoop (e : EngineError) (h : world.preLoopError = some e) :
      RunEnd (.error (e, emptyContext)) (initialState input world)
  | wave {restart retryCount cs result s} (start : WaveStart input world restart retryCount cs)
      (ends : WaveEnd input world restart retryCount cs result s) : RunEnd result s
  | exhausted {restart graft c s} (point : ExhaustionPoint input world restart graft c s) :
      RunEnd (exhausted input world restart graft c s).1
        (exhausted input world restart graft c s).2
  | refused {restart signal c s} (point : RepairPoint input world restart signal c s)
      (refused : RepairRefused input signal s.constraintCorpus) :
      RunEnd (.error (.maxRetriesExhausted, failureContext c (guardRepair input signal s)))
        (guardRepair input signal s)

variable {input world}

theorem repairHandler_of_refused {restart : Nat} {signal : InstabilitySignal}
    {c : MapeKController} {s : EngineState} (h : RepairRefused input signal s.constraintCorpus) :
    repairHandler input world restart signal c s =
      .stop (.error (.maxRetriesExhausted, failureContext c (guardRepair input signal s)),
        guardRepair input signal s) := by
  rcases repairHandler_cases input world restart signal c s with
    ⟨-, heq⟩ | ⟨version, rewritten, corpus', hattempt, -⟩ | ⟨score, corpus', hattempt, -⟩
  · exact heq
  · exact absurd h hattempt.not_refused
  · exact absurd h hattempt.not_refused

/-- A run returns exactly through its exits. -/
theorem runOffline_end_iff {result : EngineResult} {s : EngineState} :
    (∃ fuel, runOffline input world fuel = some (result, s)) ↔ RunEnd input world result s := by
  constructor
  · rintro ⟨fuel, h⟩
    rcases runOffline_stop input world h with ⟨e, hpre, rfl, rfl⟩ | ⟨restart, hstop⟩
    · exact .preLoop e hpre
    · cases hstop with
      | wave start stop => exact .wave start (waveBody_finish_iff.mp stop)
      | exhausted point => exact .exhausted point
      | refused point refused => exact .refused point refused
  · intro h
    cases h with
    | preLoop e hpre =>
        refine ⟨0, ?_⟩
        unfold runOffline
        rw [hpre]
    | @wave restart retryCount cs _ _ start ends =>
        exact ⟨restart + 1, runOffline_of_finish start (waveBody_finish_iff.mpr ends)⟩
    | @exhausted restart graft c s point => exact ⟨restart + 1, runOffline_of_exhaustion point⟩
    | @refused restart signal c s point refused =>
        obtain ⟨s₀, hiter, hloop⟩ := point
        refine ⟨restart + 1, runOffline_of_restartBody hiter ?_⟩
        unfold restartBody
        rw [hloop]
        exact repairHandler_of_refused refused

/-- A run has one exit. -/
theorem RunEnd.unique {result result' : EngineResult} {s s' : EngineState}
    (h : RunEnd input world result s) (h' : RunEnd input world result' s') :
    result = result' ∧ s = s' := by
  obtain ⟨fuel, hrun⟩ := runOffline_end_iff.mpr h
  obtain ⟨fuel', hrun'⟩ := runOffline_end_iff.mpr h'
  exact Prod.mk.inj (runOffline_unique hrun hrun')

end ControlPlane.Source.Engine
