import ControlPlane.Source.Engine.RunOffline

/-!
# Runs of the engine

What a run of `run_offline` can do, said once: the points a run passes through
(starts of iterations and waves, spec repairs, exhaustion), the steps between
them, and the ways a run ends. The guarantees read a run through these points
and never unfold the loops.
-/
namespace ControlPlane.Source.Engine

open Constraints MapeK Lib

/-! ## Frames -/

/-- `s'` is `s` after some logged actions, with the same corpus and restart count. -/
structure Appends (s s' : EngineState) (actions : List EngineAction) : Prop where
  log : s'.log = s.log ++ actions
  corpus : s'.constraintCorpus = s.constraintCorpus
  restarts : s'.specAmbiguousRestarts = s.specAmbiguousRestarts

theorem Appends.trans {s s' s'' : EngineState} {a b : List EngineAction} (h : Appends s s' a)
    (h' : Appends s' s'' b) : Appends s s'' (a ++ b) := by
  refine ⟨?_, h'.corpus.trans h.corpus, h'.restarts.trans h.restarts⟩
  rw [h'.log, h.log, List.append_assoc]

theorem appends_note (s : EngineState) (actions : List EngineAction) :
    Appends s (s.note actions) actions := ⟨rfl, rfl, rfl⟩

theorem recordWave_appends (s : EngineState) (retryCount : Nat) (run : WaveRun) :
    Appends s (recordWave s retryCount run)
      (.wave retryCount :: run.postSelections.map .postSelection) := ⟨rfl, rfl, rfl⟩

theorem waveWindow_appends (input : EngineInput) (world : WaveWorld) (c : MapeKController)
    (s : EngineState) : Appends s (waveWindow input world c s).2 [] := by
  have hlog : s.log = s.log ++ [] := (List.append_nil _).symm
  unfold waveWindow
  dsimp only
  split
  · split <;> exact ⟨hlog, rfl, rfl⟩
  · exact ⟨hlog, rfl, rfl⟩

theorem guardRepair_appends (input : EngineInput) (signal : InstabilitySignal)
    (s : EngineState) : ∃ actions, Appends s (guardRepair input signal s) actions ∧
      ∀ a ∈ actions, a = .repairGuard signal.constraintId := by
  unfold guardRepair
  split
  · exact ⟨_, appends_note s _, fun a ha => List.mem_singleton.mp ha⟩
  · exact ⟨[], ⟨(List.append_nil _).symm, rfl, rfl⟩, fun a ha => by cases ha⟩

theorem hitlGate_appends (input : EngineInput) (world : GateWorld) (out : EngineOutput)
    (s : EngineState) :
    Appends s (hitlGate input world out s).2
      (gateActions input out (gateRecord input world s)) := ⟨rfl, rfl, rfl⟩

/-! ## The `Return` arm -/

/-- A run that is resolved succeeds, or fails on a strict checkpoint. -/
theorem resolveRun_cases (input : EngineInput) (world : GateWorld) (out : EngineOutput)
    (s : EngineState) :
    (∃ what s', Appends s s' [] ∧
      resolveRun input world out s = (.error (.checkpointWriteFailed what, emptyContext), s')) ∨
    (∃ s', Appends s s' (deleteConsumer input s) ∧
      resolveRun input world out s =
        (.ok { out with resolvedOutput := returnedText input world out }, s')) := by
  unfold resolveRun
  split
  · rename_i e herror
    unfold checkpointError at herror
    split at herror
    · cases herror
      refine Or.inl ⟨_, _, ?_, rfl⟩
      exact ⟨(List.append_nil _).symm, rfl, rfl⟩
    · cases herror
  · refine Or.inr ⟨_, ?_, rfl⟩
    exact ⟨rfl, rfl, rfl⟩

/-- Everything the `Return` arm can do. -/
theorem returnArm_cases (input : EngineInput) (world : GateWorld) (out : EngineOutput)
    (s : EngineState) :
    (needsHitl input out = false ∧
      returnArm input world out s = resolveRun input world out s) ∨
    (needsHitl input out = true ∧ (gateRecord input world s).decision.approved = true ∧
      returnArm input world out s =
        resolveRun input world out (hitlGate input world out s).2) ∨
    (needsHitl input out = true ∧ (gateRecord input world s).decision.approved = false ∧
      ∃ operatorId note, returnArm input world out s =
        (.error (.hitlRejected operatorId note, emptyContext),
          (hitlGate input world out s).2.note
            (.markFailed :: if input.nats then [.deleteSignalConsumer] else []))) := by
  have hdecision : (hitlGate input world out s).1 = (gateRecord input world s).decision := rfl
  unfold returnArm
  dsimp only
  rw [hdecision]
  cases hneeds : needsHitl input out with
  | false => exact Or.inl ⟨rfl, rfl⟩
  | true =>
      cases happroved : (gateRecord input world s).decision.approved with
      | true => exact Or.inr (Or.inl ⟨rfl, rfl, rfl⟩)
      | false => exact Or.inr (Or.inr ⟨rfl, rfl, _, _, rfl⟩)

/-! ## The exhaustion handler -/

def isExhausted : EngineResult → Bool
  | .error (.maxRetriesExhausted, _) => true
  | _ => false

theorem exhausted_of_isExhausted {result : EngineResult} (h : isExhausted result = true) :
    ∃ ctx, result = .error (.maxRetriesExhausted, ctx) := by
  unfold isExhausted at h
  split at h
  · exact ⟨_, rfl⟩
  · cases h

theorem exhausted_of_none {input : EngineInput} (world : EngineWorld) {restart : Nat}
    {graft : Bool} {c : MapeKController} {s : EngineState}
    (silent : synthesisWave input (world.synthesis restart) graft c s.constraintCorpus = none) :
    (exhausted input world restart graft c s).1 = .error (.maxRetriesExhausted,
      exhaustedContext input graft c (s.note (.markFailed :: deleteConsumer input s))) := by
  have hcorpus := (appends_note s (.markFailed :: deleteConsumer input s)).corpus
  unfold exhausted
  simp only [hcorpus, silent]

theorem exhausted_of_some {input : EngineInput} (world : EngineWorld) {restart : Nat}
    {graft : Bool} {c : MapeKController} {s : EngineState} {text : String}
    (delivers : synthesisWave input (world.synthesis restart) graft c s.constraintCorpus =
      some text) :
    (exhausted input world restart graft c s).1 =
      .ok (c.finalize (synthesisMerge input text)) := by
  have hcorpus := (appends_note s (.markFailed :: deleteConsumer input s)).corpus
  unfold exhausted
  simp only [hcorpus, delivers]

/-- A single call that fails leaves nothing to verify. -/
theorem synthesisWave_unanswered {input : EngineInput} {world : SynthesisWorld}
    (noDppm : input.cfg.dppmEnabled = false)
    (noGrafting : input.cfg.synthesis.sequentialGraftingEnabled = false)
    (unanswered : world.singleShot = none) (graft : Bool) (c : MapeKController)
    (corpus : List ConstraintDoc) : synthesisWave input world graft c corpus = none := by
  unfold synthesisWave
  dsimp only
  split
  · have htext : ∀ partials, synthesisText input.cfg world graft partials = none := by
      intro partials
      simp [synthesisText, noDppm, noGrafting, unanswered]
    rw [htext]
    rfl
  · rfl

section Run

variable (input : EngineInput) (world : EngineWorld)

/-! ## One wave -/

section Wave

variable (restart retryCount : Nat) (cs : MapeKController × EngineState)

/-- What a decided wave adds to the log. -/
def waveActions : List EngineAction :=
  (.wave retryCount ::
      (waveRun input world restart retryCount cs).postSelections.map .postSelection) ++
    [.decision retryCount (waveRun input world restart retryCount cs).result.outcome
      (waveDecision input world restart retryCount cs).1]

theorem decidedState_appends :
    Appends cs.2 (decidedState input world restart retryCount cs)
      (waveActions input world restart retryCount cs) := by
  have hrecorded := recordWave_appends cs.2 retryCount (waveRun input world restart retryCount cs)
  have hwindow := hrecorded.trans (waveWindow_appends input (world.wave restart retryCount)
    (observedWave input world restart retryCount cs) _)
  rw [List.append_nil] at hwindow
  exact hwindow.trans (appends_note _ _)

/-- The ways a wave ends the run. -/
inductive WaveFinish : EngineResult → EngineState → Prop where
  | deadline (budgetSecs : Nat) :
      WaveFinish (.error (.deadlineExceeded budgetSecs, emptyContext)) (cs.2.note [.markFailed])
  | checkpoint (what : String) :
      WaveFinish (.error (.checkpointWriteFailed what, emptyContext))
        (recordWave cs.2 retryCount (waveRun input world restart retryCount cs))
  | returned (out : EngineOutput)
      (decided : (waveDecision input world restart retryCount cs).1 = .return out) :
      WaveFinish
        (returnArm input (world.wave restart retryCount).gate out
          (decidedState input world restart retryCount cs)).1
        (returnArm input (world.wave restart retryCount).gate out
          (decidedState input world restart retryCount cs)).2
  | failed (e : EngineError) (ctx : EngineRunContext)
      (decided : (waveDecision input world restart retryCount cs).1 = .fail e ctx) :
      WaveFinish (.error (e, ctx))
        ((decidedState input world restart retryCount cs).note
          (.markFailed :: deleteConsumer input (decidedState input world restart retryCount cs)))
  | overflow (score : Nat) (rationale : String) (ctx : EngineRunContext)
      (decided : (waveDecision input world restart retryCount cs).1 =
        .complexityOverflow score rationale false) :
      WaveFinish (.error (.maxRetriesExhausted, ctx))
        ((decidedState input world restart retryCount cs).note [.markFailed])

/-- Everything a wave can do. -/
inductive WaveStep : Round (MapeKController × EngineState) WaveExit → Prop where
  | finish {result : EngineResult} {s : EngineState}
      (finishes : WaveFinish input world restart retryCount cs result s) :
      WaveStep (.stop (.finish result s))
  | retry (decided : (waveDecision input world restart retryCount cs).1 = .retry) :
      WaveStep (.next (decidedController input world restart retryCount cs,
        decidedState input world restart retryCount cs))
  | specAmbiguous (signal : InstabilitySignal)
      (decided : (waveDecision input world restart retryCount cs).1 = .specAmbiguous signal) :
      WaveStep (.stop (.specAmbiguous signal (decidedController input world restart retryCount cs)
        (decidedState input world restart retryCount cs)))
  | graft (score : Nat) (rationale : String)
      (decided : (waveDecision input world restart retryCount cs).1 =
        .complexityOverflow score rationale true) :
      WaveStep (.stop (.graft (decidedController input world restart retryCount cs)
        (decidedState input world restart retryCount cs)))

theorem waveBody_step :
    WaveStep input world restart retryCount cs (waveBody input world restart retryCount cs) := by
  unfold waveBody
  dsimp only
  split
  · exact .finish (.deadline _)
  · split
    · rename_i e herror
      unfold checkpointError at herror
      split at herror
      · cases herror
        exact .finish (.checkpoint _)
      · cases herror
    · cases hdecision : (waveDecision input world restart retryCount cs).1 with
      | «return» out => exact .finish (.returned out hdecision)
      | retry => exact .retry hdecision
      | fail e ctx => exact .finish (.failed e ctx hdecision)
      | specAmbiguous signal => exact .specAmbiguous signal hdecision
      | complexityOverflow score rationale graftFirst =>
          cases graftFirst with
          | true => exact .graft score rationale hdecision
          | false => exact .finish (.overflow score rationale _ hdecision)

end Wave

/-! ## Points of a run -/

/-- Wave `retryCount` of iteration `restart` is started with `cs`. -/
def WaveStart (restart retryCount : Nat) (cs : MapeKController × EngineState) : Prop :=
  ∃ s, iterationStart input world restart = some s ∧
    retryCount ≤ input.cfg.maxAutonomicRetries ∧
    roundStart (waveBody input world restart) 0 (freshController input s.constraintCorpus, s)
      retryCount = some cs

/-- Iteration `restart` reaches the spec-repair handler. -/
def RepairPoint (restart : Nat) (signal : InstabilitySignal) (c : MapeKController)
    (s : EngineState) : Prop :=
  ∃ s₀, iterationStart input world restart = some s₀ ∧
    waveLoop input world restart s₀ = .stop (.specAmbiguous signal c s)

/-- A repair is attempted on `doc`, with this outcome. -/
structure RepairAttempt (restart : Nat) (signal : InstabilitySignal) (corpus : List ConstraintDoc)
    (outcome : RepairOutcome) (corpus' : List ConstraintDoc) : Prop where
  adapter : repairAdapter input = true
  run : ∃ doc, affectedDoc signal corpus = some doc ∧
    repairRun input world restart signal corpus doc = (outcome, corpus')

/-- Iteration `restart` reaches the exhaustion handler. -/
inductive ExhaustionPoint (restart : Nat) : Bool → MapeKController → EngineState → Prop where
  | retries {s₀ c s} (start : iterationStart input world restart = some s₀)
      (loop : waveLoop input world restart s₀ = .next (c, s)) : ExhaustionPoint restart false c s
  | graft {s₀ c s} (start : iterationStart input world restart = some s₀)
      (loop : waveLoop input world restart s₀ = .stop (.graft c s)) :
      ExhaustionPoint restart true c s
  | repair {signal c s score corpus'} (point : RepairPoint input world restart signal c s)
      (attempt : RepairAttempt input world restart signal s.constraintCorpus (.failed score)
        corpus') :
      ExhaustionPoint restart false c
        ((guardRepair input signal s).note [.repair signal.constraintId (.failed score)])

/-- The repair handler ends the run before any attempt. -/
def RepairRefused (signal : InstabilitySignal) (corpus : List ConstraintDoc) : Prop :=
  repairAdapter input = false ∨ affectedDoc signal corpus = none

/-- Everything the repair handler can do. -/
theorem repairHandler_cases (restart : Nat) (signal : InstabilitySignal) (c : MapeKController)
    (s : EngineState) :
    (RepairRefused input signal s.constraintCorpus ∧
      repairHandler input world restart signal c s =
        .stop (.error (.maxRetriesExhausted, failureContext c (guardRepair input signal s)),
          guardRepair input signal s)) ∨
    (∃ version rewritten corpus',
      RepairAttempt input world restart signal s.constraintCorpus (.repaired version rewritten)
        corpus' ∧
      repairHandler input world restart signal c s = .next
        { (guardRepair input signal s).note
            [.repair signal.constraintId (.repaired version rewritten)] with
          constraintCorpus := corpus'
          specAmbiguousRestarts := s.specAmbiguousRestarts + 1 }) ∨
    (∃ score corpus',
      RepairAttempt input world restart signal s.constraintCorpus (.failed score) corpus' ∧
      repairHandler input world restart signal c s =
        .stop (exhausted input world restart false c
          ((guardRepair input signal s).note [.repair signal.constraintId (.failed score)]))) := by
  obtain ⟨_, hguard, -⟩ := guardRepair_appends input signal s
  unfold repairHandler
  dsimp only
  rw [hguard.corpus]
  cases hadapter : repairAdapter input with
  | false => exact Or.inl ⟨Or.inl hadapter, rfl⟩
  | true =>
      cases hdoc : affectedDoc signal s.constraintCorpus with
      | none => exact Or.inl ⟨Or.inr hdoc, rfl⟩
      | some doc =>
          rcases hrun : repairRun input world restart signal s.constraintCorpus doc with
            ⟨outcome, corpus'⟩
          have hattempt : RepairAttempt input world restart signal s.constraintCorpus outcome
              corpus' := ⟨hadapter, doc, hdoc, hrun⟩
          cases outcome with
          | repaired version rewritten =>
              refine Or.inr (Or.inl ⟨version, rewritten, corpus', hattempt, ?_⟩)
              simp only [↓reduceIte, hrun, Round.next.injEq, EngineState.mk.injEq, and_true,
                true_and]
              exact congrArg (· + 1) hguard.restarts
          | failed score =>
              refine Or.inr (Or.inr ⟨score, corpus', hattempt, ?_⟩)
              simp only [↓reduceIte, hrun]

/-! ## Ways through a run -/

variable {input world} in
theorem iterationStart_zero {s : EngineState} (h : iterationStart input world 0 = some s) :
    s = initialState input world := by
  unfold iterationStart at h
  split at h
  · cases h
  · cases h
    rfl

/-- The next iteration starts behind a successful repair. -/
theorem iterationStart_succ {restart : Nat} {s' : EngineState}
    (h : iterationStart input world (restart + 1) = some s') :
    ∃ signal c s version rewritten corpus', RepairPoint input world restart signal c s ∧
      RepairAttempt input world restart signal s.constraintCorpus (.repaired version rewritten)
        corpus' ∧
      s' = { (guardRepair input signal s).note
          [.repair signal.constraintId (.repaired version rewritten)] with
        constraintCorpus := corpus'
        specAmbiguousRestarts := s.specAmbiguousRestarts + 1 } := by
  unfold iterationStart at h
  split at h
  · cases h
  · rename_i hpre
    obtain ⟨s₀, hstart, hbody⟩ := roundStart_succ_eq_some.mp h
    rw [Nat.zero_add] at hbody
    have hiter : iterationStart input world restart = some s₀ := by
      unfold iterationStart
      rw [hpre]
      exact hstart
    unfold restartBody at hbody
    split at hbody
    · cases hbody
    · cases hbody
    · rename_i signal c s hloop
      rcases repairHandler_cases input world restart signal c s with
        ⟨-, heq⟩ | ⟨version, rewritten, corpus', hattempt, heq⟩ | ⟨score, corpus', -, heq⟩
      · rw [heq] at hbody
        cases hbody
      · rw [heq] at hbody
        cases hbody
        exact ⟨signal, c, s, version, rewritten, corpus', ⟨s₀, hiter, hloop⟩, hattempt, rfl⟩
      · rw [heq] at hbody
        cases hbody
    · cases hbody

/-- The ways a run ends. -/
inductive RunEnds : EngineResult → EngineState → Prop where
  | preLoop (e : EngineError) (h : world.preLoopError = some e) :
      RunEnds (.error (e, emptyContext)) (initialState input world)
  | wave {restart retryCount cs result s} (start : WaveStart input world restart retryCount cs)
      (finish : WaveFinish input world restart retryCount cs result s) : RunEnds result s
  | exhausted {restart graft c s result s'}
      (point : ExhaustionPoint input world restart graft c s)
      (ended : Engine.exhausted input world restart graft c s = (result, s')) :
      RunEnds result s'
  | refused {restart signal c s ctx} (point : RepairPoint input world restart signal c s)
      (refused : RepairRefused input signal s.constraintCorpus) :
      RunEnds (.error (.maxRetriesExhausted, ctx)) (guardRepair input signal s)

/-- What stops an iteration of the restart loop. -/
inductive RestartStop (restart : Nat) : EngineResult → EngineState → Prop where
  | wave {retryCount cs result s} (start : WaveStart input world restart retryCount cs)
      (stop : waveBody input world restart retryCount cs = .stop (.finish result s)) :
      RestartStop restart result s
  | exhausted {graft c s} (point : ExhaustionPoint input world restart graft c s) :
      RestartStop restart (Engine.exhausted input world restart graft c s).1
        (Engine.exhausted input world restart graft c s).2
  | refused {signal c s} (point : RepairPoint input world restart signal c s)
      (refused : RepairRefused input signal s.constraintCorpus) :
      RestartStop restart
        (.error (.maxRetriesExhausted, failureContext c (guardRepair input signal s)))
        (guardRepair input signal s)

theorem restartBody_stop {restart : Nat} {s₀ s : EngineState} {result : EngineResult}
    (start : iterationStart input world restart = some s₀)
    (h : restartBody input world restart s₀ = .stop (result, s)) :
    RestartStop input world restart result s := by
  have exhausts : ∀ {graft c s'}, ExhaustionPoint input world restart graft c s' →
      Engine.exhausted input world restart graft c s' = (result, s) →
      RestartStop input world restart result s := by
    intro graft c s' point hexhausted
    have hstop := RestartStop.exhausted point
    rwa [hexhausted] at hstop
  unfold restartBody at h
  split at h
  · rename_i c s' hloop
    exact exhausts (.retries start hloop) (Round.stop.inj h)
  · rename_i result' s' hloop
    cases h
    obtain ⟨n, cs, hn, hstart, hstop⟩ := forRounds_eq_stop.mp hloop
    rw [Nat.zero_add] at hstop
    exact .wave ⟨s₀, start, by omega, hstart⟩ hstop
  · rename_i signal c s' hloop
    have hpoint : RepairPoint input world restart signal c s' := ⟨s₀, start, hloop⟩
    rcases repairHandler_cases input world restart signal c s' with
      ⟨hrefused, heq⟩ | ⟨version, rewritten, corpus', -, heq⟩ | ⟨score, corpus', hattempt, heq⟩
    · rw [heq] at h
      cases h
      exact .refused hpoint hrefused
    · rw [heq] at h
      cases h
    · rw [heq] at h
      exact exhausts (.repair hpoint hattempt) (Round.stop.inj h)
  · rename_i c s' hloop
    exact exhausts (.graft start hloop) (Round.stop.inj h)

/-- A run returns before its first iteration or when an iteration stops. -/
theorem runOffline_stop {fuel : Nat} {result : EngineResult} {s : EngineState}
    (h : runOffline input world fuel = some (result, s)) :
    (∃ e, world.preLoopError = some e ∧ result = .error (e, emptyContext) ∧
        s = initialState input world) ∨
      ∃ restart, RestartStop input world restart result s := by
  unfold runOffline at h
  split at h
  · rename_i e hpre
    cases h
    exact Or.inl ⟨e, hpre, rfl, rfl⟩
  · rename_i hpre
    split at h
    · rename_i ended hloop
      cases h
      obtain ⟨n, s₀, -, hstart, hstop⟩ := forRounds_eq_stop.mp hloop
      rw [Nat.zero_add] at hstop
      refine Or.inr ⟨n, restartBody_stop input world ?_ hstop⟩
      unfold iterationStart
      rw [hpre]
      exact hstart
    · cases h

/-- Every run that returns ends in one of these ways. -/
theorem runOffline_ends {fuel : Nat} {result : EngineResult} {s : EngineState}
    (h : runOffline input world fuel = some (result, s)) : RunEnds input world result s := by
  rcases runOffline_stop input world h with ⟨e, hpre, rfl, rfl⟩ | ⟨restart, hstop⟩
  · exact .preLoop e hpre
  · cases hstop with
    | @wave retryCount cs _ _ start stop =>
        have hstep := waveBody_step input world restart retryCount cs
        rw [stop] at hstep
        cases hstep with
        | finish finishes => exact .wave start finishes
    | exhausted point => exact .exhausted point rfl
    | refused point refused => exact .refused point refused

/-- Fuel decides whether a run returns, not what it returns. -/
theorem runOffline_unique {input : EngineInput} {world : EngineWorld} {fuel fuel' : Nat}
    {ended ended' : EngineResult × EngineState} (h : runOffline input world fuel = some ended)
    (h' : runOffline input world fuel' = some ended') : ended = ended' := by
  unfold runOffline at h h'
  cases hpre : world.preLoopError with
  | some e =>
      simp only [hpre] at h h'
      rw [← Option.some.inj h]
      exact Option.some.inj h'
  | none =>
      simp only [hpre] at h h'
      split at h
      · rename_i stopped hloop
        split at h'
        · rename_i stopped' hloop'
          rw [← Option.some.inj h, ← Option.some.inj h']
          exact forRounds_stop_unique hloop hloop'
        · cases h'
      · cases h

/-- The two ways a run succeeds: a returned wave, or a synthesis wave that delivers. -/
theorem runOffline_ok {fuel : Nat} {out : EngineOutput} {s : EngineState}
    (h : runOffline input world fuel = some (.ok out, s)) :
    (∃ restart retryCount cs returned, WaveStart input world restart retryCount cs ∧
      (waveDecision input world restart retryCount cs).1 = .return returned ∧
      returnArm input (world.wave restart retryCount).gate returned
        (decidedState input world restart retryCount cs) = (.ok out, s)) ∨
    ∃ restart graft c s₁, ExhaustionPoint input world restart graft c s₁ ∧
      synthesisWave input (world.synthesis restart) graft c s₁.constraintCorpus ≠ none := by
  generalize hresult : (Except.ok out : EngineResult) = result at h
  cases runOffline_ends input world h with
  | preLoop e _ => cases hresult
  | @wave restart retryCount cs _ _ start finish =>
      cases finish with
      | deadline budgetSecs => cases hresult
      | checkpoint what => cases hresult
      | returned returned decided =>
          exact Or.inl ⟨restart, retryCount, cs, returned, start, decided, rfl⟩
      | failed e ctx decided => cases hresult
      | overflow score rationale ctx decided => cases hresult
  | @exhausted restart graft c s₁ _ _ point ended =>
      refine Or.inr ⟨restart, graft, c, s₁, point, ?_⟩
      intro hsilent
      have herror := exhausted_of_none world hsilent
      rw [ended, ← hresult] at herror
      cases herror
  | refused point refused => cases hresult

/-! ## Runs through a point -/

section Reached

variable {input world}

/-- An iteration that is started and stops ends the run. -/
theorem runOffline_of_restartBody {restart : Nat} {s₀ : EngineState}
    {ended : EngineResult × EngineState} (start : iterationStart input world restart = some s₀)
    (stops : restartBody input world restart s₀ = .stop ended) :
    runOffline input world (restart + 1) = some ended := by
  unfold iterationStart at start
  unfold runOffline
  cases hpre : world.preLoopError with
  | some e =>
      rw [hpre] at start
      cases start
  | none =>
      rw [hpre] at start
      have hloop : forRounds (restartBody input world) (restart + 1) 0 (initialState input world) =
          .stop ended := by
        refine forRounds_eq_stop.mpr ⟨restart, s₀, Nat.lt_succ_self restart, start, ?_⟩
        rw [Nat.zero_add]
        exact stops
      simp only [hloop]

theorem runOffline_of_finish {restart retryCount : Nat} {cs : MapeKController × EngineState}
    {result : EngineResult} {s : EngineState}
    (start : WaveStart input world restart retryCount cs)
    (stops : waveBody input world restart retryCount cs = .stop (.finish result s)) :
    runOffline input world (restart + 1) = some (result, s) := by
  obtain ⟨s₀, hiter, hn, hstart⟩ := start
  have hloop : waveLoop input world restart s₀ = .stop (.finish result s) := by
    refine forRounds_eq_stop.mpr ⟨retryCount, cs, by omega, hstart, ?_⟩
    rw [Nat.zero_add]
    exact stops
  refine runOffline_of_restartBody hiter ?_
  unfold restartBody
  rw [hloop]

theorem RepairAttempt.unique {restart : Nat} {signal : InstabilitySignal}
    {corpus corpus₁ corpus₂ : List ConstraintDoc} {outcome₁ outcome₂ : RepairOutcome}
    (h₁ : RepairAttempt input world restart signal corpus outcome₁ corpus₁)
    (h₂ : RepairAttempt input world restart signal corpus outcome₂ corpus₂) :
    outcome₁ = outcome₂ := by
  obtain ⟨doc₁, hdoc₁, hrun₁⟩ := h₁.run
  obtain ⟨doc₂, hdoc₂, hrun₂⟩ := h₂.run
  rw [hdoc₁] at hdoc₂
  cases hdoc₂
  rw [hrun₁] at hrun₂
  exact congrArg Prod.fst hrun₂

theorem RepairAttempt.not_refused {restart : Nat} {signal : InstabilitySignal}
    {corpus corpus' : List ConstraintDoc} {outcome : RepairOutcome}
    (h : RepairAttempt input world restart signal corpus outcome corpus') :
    ¬ RepairRefused input signal corpus := by
  obtain ⟨doc, hdoc, -⟩ := h.run
  rintro (hadapter | hnone)
  · rw [h.adapter] at hadapter
    cases hadapter
  · rw [hdoc] at hnone
    cases hnone

theorem repairHandler_of_failed {restart : Nat} {signal : InstabilitySignal}
    {c : MapeKController} {s : EngineState} {score : ℚ} {corpus' : List ConstraintDoc}
    (h : RepairAttempt input world restart signal s.constraintCorpus (.failed score) corpus') :
    repairHandler input world restart signal c s =
      .stop (exhausted input world restart false c
        ((guardRepair input signal s).note [.repair signal.constraintId (.failed score)])) := by
  rcases repairHandler_cases input world restart signal c s with
    ⟨hrefused, -⟩ | ⟨version, rewritten, corpus₁, hattempt, -⟩ | ⟨score₁, corpus₁, hattempt, heq⟩
  · exact absurd hrefused h.not_refused
  · cases h.unique hattempt
  · cases h.unique hattempt
    exact heq

/-- A run that reaches the exhaustion handler ends in it. -/
theorem runOffline_of_exhaustion {restart : Nat} {graft : Bool} {c : MapeKController}
    {s : EngineState} (point : ExhaustionPoint input world restart graft c s) :
    runOffline input world (restart + 1) = some (exhausted input world restart graft c s) := by
  cases point with
  | retries start loop =>
      refine runOffline_of_restartBody start ?_
      unfold restartBody
      rw [loop]
  | graft start loop =>
      refine runOffline_of_restartBody start ?_
      unfold restartBody
      rw [loop]
  | @repair signal _ s₁ score corpus' point attempt =>
      obtain ⟨s₀, hiter, hloop⟩ := point
      refine runOffline_of_restartBody hiter ?_
      unfold restartBody
      rw [hloop]
      exact repairHandler_of_failed attempt

end Reached

/-! ## The wave in front of a point -/

/-- A wave that is followed by another one was answered with `Retry`. -/
theorem waveStart_succ {restart retryCount : Nat} {cs' : MapeKController × EngineState}
    {s₀ : EngineState}
    (h : roundStart (waveBody input world restart) 0
      (freshController input s₀.constraintCorpus, s₀) (retryCount + 1) = some cs') :
    ∃ cs, roundStart (waveBody input world restart) 0
        (freshController input s₀.constraintCorpus, s₀) retryCount = some cs ∧
      (waveDecision input world restart retryCount cs).1 = .retry ∧
      cs' = (decidedController input world restart retryCount cs,
        decidedState input world restart retryCount cs) := by
  obtain ⟨cs, hstart, hbody⟩ := roundStart_succ_eq_some.mp h
  rw [Nat.zero_add] at hbody
  have hstep := waveBody_step input world restart retryCount cs
  rw [hbody] at hstep
  cases hstep with
  | retry decided => exact ⟨cs, hstart, decided, rfl⟩

/-- The wave that reported the instability. -/
theorem repairPoint_wave {restart : Nat} {signal : InstabilitySignal} {c : MapeKController}
    {s : EngineState} (h : RepairPoint input world restart signal c s) :
    ∃ retryCount cs, WaveStart input world restart retryCount cs ∧
      (waveDecision input world restart retryCount cs).1 = .specAmbiguous signal ∧
      s = decidedState input world restart retryCount cs := by
  obtain ⟨s₀, hiter, hloop⟩ := h
  obtain ⟨n, cs, hn, hstart, hstop⟩ := forRounds_eq_stop.mp hloop
  rw [Nat.zero_add] at hstop
  have hstep := waveBody_step input world restart n cs
  rw [hstop] at hstep
  cases hstep with
  | specAmbiguous _ decided => exact ⟨n, cs, ⟨s₀, hiter, by omega, hstart⟩, decided, rfl⟩

/-- The wave behind which the retries were exhausted or a graft was asked for. -/
theorem exhaustion_wave {restart : Nat} {graft : Bool} {c : MapeKController} {s : EngineState}
    (h : ExhaustionPoint input world restart graft c s) :
    ∃ retryCount cs, WaveStart input world restart retryCount cs ∧
      (waveDecision input world restart retryCount cs).1.endsRun = false ∧
      (s = decidedState input world restart retryCount cs ∨
        ∃ signal score corpus', RepairPoint input world restart signal c
            (decidedState input world restart retryCount cs) ∧
          RepairAttempt input world restart signal
            (decidedState input world restart retryCount cs).constraintCorpus (.failed score)
            corpus' ∧
          s = (guardRepair input signal (decidedState input world restart retryCount cs)).note
            [.repair signal.constraintId (.failed score)]) := by
  cases h with
  | @retries s₀ _ _ start loop =>
      have hlast := forRounds_eq_next.mp loop
      obtain ⟨cs, hstart, hretry, hstate⟩ := waveStart_succ input world hlast
      have hopen : (waveDecision input world restart input.cfg.maxAutonomicRetries
          cs).1.endsRun = false := by
        rw [hretry]
        rfl
      exact ⟨_, cs, ⟨s₀, start, le_rfl, hstart⟩, hopen, Or.inl (congrArg Prod.snd hstate)⟩
  | @graft s₀ _ _ start loop =>
      obtain ⟨n, cs, hn, hstart, hstop⟩ := forRounds_eq_stop.mp loop
      rw [Nat.zero_add] at hstop
      have hstep := waveBody_step input world restart n cs
      rw [hstop] at hstep
      cases hstep with
      | graft score rationale decided =>
          have hopen : (waveDecision input world restart n cs).1.endsRun = false := by
            rw [decided]
            rfl
          exact ⟨n, cs, ⟨s₀, start, by omega, hstart⟩, hopen, Or.inl rfl⟩
  | @repair signal _ s score corpus' point attempt =>
      obtain ⟨n, cs, hwave, hsignal, rfl⟩ := repairPoint_wave input world point
      have hopen : (waveDecision input world restart n cs).1.endsRun = false := by
        rw [hsignal]
        rfl
      exact ⟨n, cs, hwave, hopen, Or.inr ⟨signal, score, corpus', point, attempt, rfl⟩⟩

end Run

end ControlPlane.Source.Engine
