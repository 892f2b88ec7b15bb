import ControlPlane.Lib.Entries
import ControlPlane.Source.Engine.WaveHistory

/-!
# Failure diagnostics

What the context of a run that ends with `MaxRetriesExhausted` says about the
constraints its proposals were pruned for. The engine counts the violations in the
events of each wave. A wave that ends before its pruned list is copied into the events
is not counted, a list that names a constraint twice counts twice, and a run that the
controller gives up carries no counts at all.
-/
namespace ControlPlane.Guarantees.FailureDiagnostics

open Source Source.Config Source.Constraints Source.Engine Source.MapeK Source.Verification Lib

/-! ## Pruned proposals of a wave -/

section Wave

variable (input : EngineInput) (settings : ProposalSettings) (retryCount : Nat) (a : WaveAnswers)

/-- The proposals that verification and audit have pruned, however the wave ends. -/
def wavePruned : List BranchPrunedEvent :=
  if reachesVerification a then (waveAudit input settings retryCount a).2.pruned else []

/-- The wave gets to the point where the pruned list is copied into its events. -/
def recordsPruned : Bool :=
  reachesAudit input settings retryCount a &&
    (waveAudit input settings retryCount a).1.isNone &&
    (oracleRun input a.oracleReply).isDone

theorem mergePath_pruned (carry : WaveCarry) (phases : WavePhases) :
    (mergePath input carry phases).result.events.prunedEvents = carry.events.prunedEvents := by
  unfold mergePath phase
  split
  · dsimp only
    split
    · split <;> rfl
    · rfl
  · rfl
  · rfl

theorem afterAudit_pruned (corpus : List ConstraintDoc) (params : OptimizerParams)
    (phases : WavePhases) (events : WaveEvents) (tauValues : List ℚ) (verify : VerifyOutput)
    (audit : AuditOutput) :
    (afterAudit input corpus params phases events tauValues verify
        audit).result.events.prunedEvents =
      events.prunedEvents ++
        if (oracleRun input phases.oracleReply).isDone then audit.pruned else [] := by
  unfold afterAudit
  cases oracleRun input phases.oracleReply with
  | done oracleGatePassed =>
      unfold phase
      dsimp only
      split
      · rfl
      · exact mergePath_pruned input _ phases
  | earlyExit reason => exact (List.append_nil _).symm
  | fatal error => exact (List.append_nil _).symm

/-- A wave hands over its whole pruned list, or nothing. -/
theorem pipelineRun_pruned (corpus : List ConstraintDoc) (params : OptimizerParams) :
    (pipelineRun input corpus params
        (wavePhases input settings retryCount a)).result.events.prunedEvents =
      if recordsPruned input settings retryCount a then wavePruned input settings retryCount a
      else [] := by
  unfold recordsPruned wavePruned reachesAudit
  cases hreach : reachesVerification a with
  | false =>
      rw [(pipelineRun_stops input settings retryCount corpus params hreach).1]
      simp [noEvents]
  | true =>
      rw [pipelineRun_verifies input settings retryCount corpus params hreach]
      cases hverify : waveVerify input settings retryCount a with
      | earlyExit reason =>
          simp [wavePhases, hverify, StepResult.map, phase, generatedEvents, noEvents]
      | fatal error =>
          simp [wavePhases, hverify, StepResult.map, phase, generatedEvents, noEvents]
      | done out =>
          cases haudit : (waveAudit input settings retryCount a).1 with
          | some e =>
              simp [wavePhases, hverify, StepResult.map, phase, auditStep, haudit,
                generatedEvents, noEvents]
          | none =>
              simp [wavePhases, hverify, StepResult.map, phase, auditStep, haudit,
                afterAudit_pruned, generatedEvents, noEvents]

end Wave

/-! ## Counting violations -/

/-- Proposals whose violation list names the constraint. -/
def namedIn (id : String) (pruned : List BranchPrunedEvent) : Nat :=
  pruned.countP fun e => decide (id ∈ e.violatedConstraints.map (·.constraintId))

/-- Entries for the constraint in all the lists together. -/
def entriesIn (id : String) (pruned : List BranchPrunedEvent) : Nat :=
  ((pruned.flatMap (·.violatedConstraints)).map (·.constraintId)).count id

/-- Entries for the constraint behind an earlier one of the same list. -/
def repeatsIn (id : String) (pruned : List BranchPrunedEvent) : Nat :=
  (pruned.map fun e => (e.violatedConstraints.map (·.constraintId)).count id - 1).sum

theorem entriesIn_eq (id : String) (pruned : List BranchPrunedEvent) :
    entriesIn id pruned = namedIn id pruned + repeatsIn id pruned := by
  unfold entriesIn namedIn repeatsIn
  induction pruned with
  | nil => rfl
  | cons e rest ih =>
      rw [List.flatMap_cons, List.map_append, List.count_append, ih, List.countP_cons,
        List.map_cons, List.sum_cons]
      by_cases hnamed : id ∈ e.violatedConstraints.map (·.constraintId)
      · have hpos := List.count_pos_iff.mpr hnamed
        rw [if_pos (decide_eq_true hnamed)]
        omega
      · rw [List.count_eq_zero_of_not_mem hnamed, decide_eq_false hnamed,
          if_neg Bool.false_ne_true]
        omega

theorem countViolations_tallied (freq : List (String × Nat)) (pruned : List BranchPrunedEvent)
    (id : String) :
    tallied (countViolations freq pruned) id = tallied freq id + entriesIn id pruned := by
  have hbump : countViolations freq pruned =
      ((pruned.flatMap (·.violatedConstraints)).map (·.constraintId)).foldl bump freq := by
    rw [List.foldl_map]
    rfl
  rw [hbump]
  exact tallied_foldl _ freq id

/-! ## What the engine keeps -/

/-- The last action of a log that carries a value of some kind, by that value. -/
def lastOf {α : Type} (value : EngineAction → Option α) (log : List EngineAction) : Option α :=
  (log.filterMap value).getLast?

theorem lastOf_append {α : Type} (value : EngineAction → Option α) (log tail : List EngineAction) :
    lastOf value (log ++ tail) = (lastOf value tail).or (lastOf value log) := by
  unfold lastOf
  rw [List.filterMap_append, List.getLast?_append]

theorem lastOf_none {α : Type} {value : EngineAction → Option α} {actions : List EngineAction}
    (h : ∀ a ∈ actions, value a = none) : lastOf value actions = none := by
  unfold lastOf
  rw [List.filterMap_eq_nil_iff.mpr h]
  rfl

/-- Outcome and decision of a wave. -/
def decisionOf : EngineAction → Option (PipelineOutcome × MapeKDecision)
  | .decision _ outcome decision => some (outcome, decision)
  | _ => none

/-- The size of a resolved selection. -/
def resolvedCount (a : EngineAction) : Option Nat :=
  match decisionOf a with
  | some (.resolved merge, _) => some merge.selectionValidCount
  | _ => none

theorem resolvedCount_none {a : EngineAction} (h : decisionOf a = none) :
    resolvedCount a = none := by
  unfold resolvedCount
  rw [h]

/-- Actions without a decision leave the last one standing. -/
theorem appends_lastOf {α : Type} {value : EngineAction → Option α}
    (reads : ∀ a, decisionOf a = none → value a = none) {s s' : EngineState}
    {actions : List EngineAction} (h : Appends s s' actions)
    (undecided : ∀ a ∈ actions, decisionOf a = none) :
    lastOf value s'.log = lastOf value s.log := by
  have hnone : lastOf value actions = none :=
    lastOf_none fun a ha => reads a (undecided a ha)
  rw [h.log, lastOf_append, hnone, Option.none_or]

/-! ## A run the controller gives up -/

/-- The context of a run that the controller gives up has no records of the engine. -/
structure Undiagnosed (ctx : EngineRunContext) : Prop where
  freq : ctx.violationFreq = []
  last : ctx.lastSelectionValidCount = none

theorem overflow_ne_fail {decision : MapeKDecision} (h : IsOverflow decision) (e : EngineError)
    (ctx : EngineRunContext) : decision ≠ .fail e ctx := by
  obtain ⟨score, rationale, graftFirst, rfl⟩ := h
  exact nofun

theorem applyRetryAction_fail {lib : ControllerLib} {c : MapeKController} {action : RetryAction}
    {retryCount : Nat} {ratio : ℚ} {e : EngineError} {ctx : EngineRunContext}
    (h : (c.applyRetryAction lib action retryCount ratio).1 = .fail e ctx) : Undiagnosed ctx := by
  cases action with
  | fail =>
      unfold MapeKController.applyRetryAction at h
      dsimp only at h
      split at h
      · cases h
      · cases h
        exact ⟨rfl, rfl⟩
  | _ => cases h

theorem exitRoute_fail {lib : ControllerLib} {c : MapeKController} {retryCount : Nat}
    {reason : ExitReason} {answer : MapeKDecision × MapeKController} {e : EngineError}
    {ctx : EngineRunContext} (h : ExitRoute lib c retryCount reason answer)
    (fails : answer.1 = .fail e ctx) : Undiagnosed ctx := by
  cases h with
  | probe routed =>
      exact absurd fails (overflow_ne_fail (probeRouting_overflow routed) e ctx)
  | integration unrouted fires prepared =>
      exact absurd fails (overflow_ne_fail (integrationTrigger_overflow fires) e ctx)
  | ceiling unrouted quiet fires prepared =>
      exact absurd fails (overflow_ne_fail (ceilingTrigger_overflow fires) e ctx)
  | policy asks prepared ratio => exact applyRetryAction_fail fails
  | hallucination unrouted => cases fails
  | evicted unrouted => cases fails
  | blocked unrouted =>
      cases fails
      exact ⟨rfl, rfl⟩

theorem decide_fail {lib : ControllerLib} {c : MapeKController} {outcome : PipelineOutcome}
    {retryCount : Nat} {filterRatio : ℚ} {e : EngineError} {ctx : EngineRunContext}
    (h : (c.decide lib outcome retryCount filterRatio).1 = .fail e ctx) : Undiagnosed ctx := by
  obtain ⟨c', -, heq⟩ := decide_eq lib c outcome retryCount filterRatio
  rw [heq] at h
  cases hsignal : (c.checkInstability lib retryCount).1 with
  | some signal =>
      rw [hsignal] at h
      cases h
  | none =>
      rw [hsignal] at h
      cases outcome with
      | resolved merge =>
          rcases decideResolved_cases c' merge retryCount with
            ⟨-, hretry⟩ | ⟨-, out, hreturn, -⟩
          · rw [hretry] at h
            cases h
          · rw [hreturn] at h
            cases h
      | fatal error =>
          cases h
          exact ⟨rfl, rfl⟩
      | earlyExit reason =>
          exact exitRoute_fail (handleExitReason_route lib c' retryCount reason filterRatio) h

/-! ## Records at every point of a run -/

section Run

variable (input : EngineInput) (settings : ProposalSettings) (world : EngineWorld)
  (waves : Nat → Nat → WaveAnswers)

/-- The engine's own records of the waves behind it. -/
structure Diagnosed (s : EngineState) : Prop where
  freq : ∀ id, tallied s.violationFreq id = overWaves waves (fun n a =>
    if recordsPruned input settings n a then entriesIn id (wavePruned input settings n a)
    else 0) s
  last : s.lastSelectionValidCount = lastOf resolvedCount s.log

theorem waveWindow_records (ww : WaveWorld) (c : MapeKController) (s : EngineState) :
    (waveWindow input ww c s).2.violationFreq = s.violationFreq ∧
      (waveWindow input ww c s).2.lastSelectionValidCount = s.lastSelectionValidCount := by
  unfold waveWindow
  dsimp only
  split
  · split <;> exact ⟨rfl, rfl⟩
  · exact ⟨rfl, rfl⟩

theorem guardRepair_records (signal : InstabilitySignal) (s : EngineState) :
    (guardRepair input signal s).violationFreq = s.violationFreq ∧
      (guardRepair input signal s).lastSelectionValidCount = s.lastSelectionValidCount := by
  unfold guardRepair
  split <;> exact ⟨rfl, rfl⟩

theorem waveActions_lastOf {α : Type} {value : EngineAction → Option α}
    (h : ∀ a, decisionOf a = none → value a = none) (restart retryCount : Nat)
    (cs : MapeKController × EngineState) :
    lastOf value (waveActions input world restart retryCount cs) =
      value (.decision retryCount (waveRun input world restart retryCount cs).result.outcome
        (waveDecision input world restart retryCount cs).1) := by
  unfold waveActions
  rw [lastOf_append]
  have hfront : lastOf value (.wave retryCount :: (waveRun input world restart retryCount
      cs).postSelections.map EngineAction.postSelection) = none := by
    refine lastOf_none fun a ha => h a ?_
    rcases List.mem_cons.mp ha with rfl | hpost
    · rfl
    · obtain ⟨call, -, rfl⟩ := List.mem_map.mp hpost
      rfl
  rw [hfront, Option.or_none]
  unfold lastOf
  cases hvalue : value (.decision retryCount (waveRun input world restart retryCount
    cs).result.outcome (waveDecision input world restart retryCount cs).1) <;> simp [hvalue]

section Decided

variable (restart retryCount : Nat) (cs : MapeKController × EngineState)

theorem decidedState_freq (id : String) :
    tallied (decidedState input (withWaves input settings world waves) restart retryCount
        cs).violationFreq id =
      tallied cs.2.violationFreq id +
        if recordsPruned input settings retryCount (waves restart retryCount) then
          entriesIn id (wavePruned input settings retryCount (waves restart retryCount))
        else 0 := by
  have hwindow := (waveWindow_records input
    ((withWaves input settings world waves).wave restart retryCount)
    (observedWave input (withWaves input settings world waves) restart retryCount cs)
    (recordWave cs.2 retryCount
      (waveRun input (withWaves input settings world waves) restart retryCount cs))).1
  have hpruned := pipelineRun_pruned input settings retryCount (waves restart retryCount)
    cs.2.constraintCorpus (waveParams input.cfg cs.1 retryCount)
  refine (congrArg (tallied · id) hwindow).trans ?_
  refine (countViolations_tallied cs.2.violationFreq _ id).trans ?_
  refine congrArg (tallied cs.2.violationFreq id + ·) ?_
  refine (congrArg (entriesIn id) hpruned).trans ?_
  split <;> rfl

theorem decidedState_lastSelection :
    (decidedState input world restart retryCount cs).lastSelectionValidCount =
      (lastOf resolvedCount (waveActions input world restart retryCount cs)).or
        cs.2.lastSelectionValidCount := by
  have hwindow := (waveWindow_records input (world.wave restart retryCount)
    (observedWave input world restart retryCount cs)
    (recordWave cs.2 retryCount (waveRun input world restart retryCount cs))).2
  refine hwindow.trans ?_
  rw [waveActions_lastOf input world fun a => resolvedCount_none]
  unfold recordWave
  dsimp only
  cases (waveRun input world restart retryCount cs).result.outcome <;> rfl

end Decided

/-- At every point of a run its records are those of the waves behind it. -/
theorem diagnosed_invariant :
    RunInvariant input (withWaves input settings world waves)
      (Diagnosed input settings waves) where
  init := ⟨fun _ => rfl, rfl⟩
  wave {restart retryCount cs} start before := by
    have hwaves := (decidedState_waves input (withWaves input settings world waves) restart
      retryCount cs).1
    rw [waveStart_restarts start] at hwaves
    refine ⟨fun id => ?_, ?_⟩
    · rw [decidedState_freq, before.freq id]
      unfold overWaves
      rw [hwaves, List.map_append, List.sum_append, List.map_singleton, List.sum_singleton]
    · rw [decidedState_lastSelection, before.last, ← lastOf_append,
        (decidedState_appends input (withWaves input settings world waves) restart retryCount
          cs).log]
  repaired {restart signal c s outcome corpus'} _ before := by
    obtain ⟨hfreq, hlast⟩ := guardRepair_records input signal s
    refine ⟨fun id => ?_, ?_⟩
    · refine (congrArg (tallied · id) hfreq).trans ?_
      rw [before.freq id]
      unfold overWaves
      rw [repairedState_waves]
    · obtain ⟨actions, happends, hguard⟩ := guardRepair_appends input signal s
      have hundecided : ∀ a ∈ actions ++ [.repair signal.constraintId outcome],
          decisionOf a = none := by
        intro a ha
        rcases List.mem_append.mp ha with hguarded | hrepair
        · rw [hguard a hguarded]
          rfl
        · rw [List.mem_singleton.mp hrepair]
          rfl
      have hkeeps := appends_lastOf (fun a => resolvedCount_none)
        (happends.trans (appends_note _ [.repair signal.constraintId outcome])) hundecided
      exact (hlast.trans before.last).trans hkeeps.symm

/-! ## Exits with `MaxRetriesExhausted` -/

/-- No wave, no iteration and no decision. -/
def Silent (a : EngineAction) : Prop := a.Idle ∧ decisionOf a = none

theorem guardRepair_silent (signal : InstabilitySignal) (s : EngineState) :
    ∃ actions, Appends s (guardRepair input signal s) actions ∧ ∀ a ∈ actions, Silent a := by
  obtain ⟨actions, happends, hguard⟩ := guardRepair_appends input signal s
  refine ⟨actions, happends, fun a ha => ?_⟩
  rw [hguard a ha]
  exact ⟨⟨rfl, rfl⟩, rfl⟩

/-- The run ends behind this wave, and `s` is its state. -/
structure EndsBehind (restart retryCount : Nat) (cs : MapeKController × EngineState)
    (s : EngineState) : Prop where
  start : WaveStart input world restart retryCount cs
  appends : ∃ actions, Appends (decidedState input world restart retryCount cs) s actions ∧
    ∀ a ∈ actions, Silent a

variable {input world} in
theorem EndsBehind.note {restart retryCount : Nat} {cs : MapeKController × EngineState}
    {s : EngineState} (h : EndsBehind input world restart retryCount cs s)
    {actions : List EngineAction} (silent : ∀ a ∈ actions, Silent a) :
    EndsBehind input world restart retryCount cs (s.note actions) := by
  obtain ⟨before, happends, hbefore⟩ := h.appends
  refine ⟨h.start, before ++ actions, happends.trans (appends_note s actions), ?_⟩
  intro a ha
  rcases List.mem_append.mp ha with hold | hnew
  · exact hbefore a hold
  · exact silent a hnew

variable {input world} in
theorem endsBehind_decided {restart retryCount : Nat} {cs : MapeKController × EngineState}
    (start : WaveStart input world restart retryCount cs) :
    EndsBehind input world restart retryCount cs
      (decidedState input world restart retryCount cs) :=
  ⟨start, [], ⟨(List.append_nil _).symm, rfl, rfl⟩, fun a ha => by cases ha⟩

/-- Everything a run that ends with `MaxRetriesExhausted` may return: the controller has
given up, or a handler of the engine has, and then the context has its records. -/
inductive ExhaustedEnd (ctx : EngineRunContext) (s : EngineState) : Prop where
  | preLoop (before : s = initialState input world) (empty : ctx = emptyContext)
  | givenUp {restart retryCount cs} (behind : EndsBehind input world restart retryCount cs s)
      (fails : (waveDecision input world restart retryCount cs).1.isFail = true)
      (context : Undiagnosed ctx)
  | handled {restart retryCount cs} (behind : EndsBehind input world restart retryCount cs s)
      (goesOn : (waveDecision input world restart retryCount cs).1.isFail = false)
      (freq : ctx.violationFreq = (decidedState input world restart retryCount cs).violationFreq)
      (last : ctx.lastSelectionValidCount =
        (decidedState input world restart retryCount cs).lastSelectionValidCount)

variable {input world} in
theorem returnArm_ne_exhausted {gate : GateWorld} {out : EngineOutput} {s : EngineState}
    (ctx : EngineRunContext) :
    (returnArm input gate out s).1 ≠ .error (.maxRetriesExhausted, ctx) := by
  have hresolve : ∀ s, (resolveRun input gate out s).1 ≠ .error (.maxRetriesExhausted, ctx) := by
    intro s
    rcases resolveRun_cases input gate out s with ⟨what, s', -, heq⟩ | ⟨s', -, heq⟩
    · rw [heq]
      exact nofun
    · rw [heq]
      exact nofun
  rcases returnArm_cases input gate out s with
    ⟨-, heq⟩ | ⟨-, -, heq⟩ | ⟨-, -, operatorId, note, heq⟩
  · rw [heq]
    exact hresolve s
  · rw [heq]
    exact hresolve (hitlGate input gate out s).2
  · rw [heq]
    exact nofun

variable {input world} in
theorem waveEnd_exhausted {restart retryCount : Nat} {cs : MapeKController × EngineState}
    {ctx : EngineRunContext} {s : EngineState}
    (start : WaveStart input world restart retryCount cs)
    (h : WaveEnd input world restart retryCount cs (.error (.maxRetriesExhausted, ctx)) s) :
    ExhaustedEnd input world ctx s := by
  generalize hresult : (Except.error (.maxRetriesExhausted, ctx) : EngineResult) = result at h
  cases h with
  | deadline passed => cases hresult
  | checkpoint inTime e fails =>
      cases hresult
      unfold checkpointError at fails
      split at fails
      · cases fails
      · cases fails
  | returned decided out returns => exact absurd hresult.symm (returnArm_ne_exhausted ctx)
  | failed decided e ctx' fails =>
      cases hresult
      refine .givenUp ((endsBehind_decided start).note ?_) ?_ (decide_fail fails)
      · exact cleanup_logs input ⟨⟨rfl, rfl⟩, rfl⟩ ⟨⟨rfl, rfl⟩, rfl⟩ _
      · rw [fails]
        rfl
  | overflow decided score rationale overflows =>
      cases hresult
      refine .handled ((endsBehind_decided start).note ?_) ?_ rfl rfl
      · intro a ha
        rw [List.mem_singleton.mp ha]
        exact ⟨⟨rfl, rfl⟩, rfl⟩
      · rw [overflows]
        rfl

theorem exhaustedContext_records (graft : Bool) (c : MapeKController) (s : EngineState) :
    (exhaustedContext input graft c s).violationFreq = s.violationFreq ∧
      (exhaustedContext input graft c s).lastSelectionValidCount = s.lastSelectionValidCount := by
  unfold exhaustedContext
  dsimp only
  split <;> exact ⟨rfl, rfl⟩

variable {input world} in
/-- The handlers leave the records of the last wave as they are. -/
theorem exhaustion_behind {restart : Nat} {graft : Bool} {c : MapeKController} {s : EngineState}
    (h : ExhaustionPoint input world restart graft c s) :
    ∃ retryCount cs, EndsBehind input world restart retryCount cs s ∧
      (waveDecision input world restart retryCount cs).1.isFail = false ∧
      s.violationFreq = (decidedState input world restart retryCount cs).violationFreq ∧
      s.lastSelectionValidCount =
        (decidedState input world restart retryCount cs).lastSelectionValidCount := by
  obtain ⟨n, cs, hwave, hopen, hstate⟩ := exhaustion_wave input world h
  have hgoesOn := (Bool.or_eq_false_iff.mp hopen).2
  refine ⟨n, cs, ?_⟩
  rcases hstate with rfl | ⟨signal, score, corpus', -, -, rfl⟩
  · exact ⟨endsBehind_decided hwave, hgoesOn, rfl, rfl⟩
  · obtain ⟨hfreq, hlast⟩ := guardRepair_records input signal
      (decidedState input world restart n cs)
    refine ⟨EndsBehind.note ⟨hwave, guardRepair_silent input signal _⟩ ?_, hgoesOn, hfreq, hlast⟩
    intro a ha
    rw [List.mem_singleton.mp ha]
    exact ⟨⟨rfl, rfl⟩, rfl⟩

variable {input world} in
theorem exhausted_exhaustedEnd {restart : Nat} {graft : Bool} {c : MapeKController}
    {s : EngineState} (point : ExhaustionPoint input world restart graft c s)
    {ctx : EngineRunContext}
    (h : (exhausted input world restart graft c s).1 = .error (.maxRetriesExhausted, ctx)) :
    ExhaustedEnd input world ctx (exhausted input world restart graft c s).2 := by
  cases hsilent : synthesisWave input (world.synthesis restart) graft c s.constraintCorpus with
  | some text =>
      rw [exhausted_of_some world hsilent] at h
      cases h
  | none =>
      rw [exhausted_of_none world hsilent] at h
      cases h
      have hcorpus := (appends_note s (.markFailed :: deleteConsumer input s)).corpus
      have hstate : (exhausted input world restart graft c s).2 =
          s.note (.markFailed :: deleteConsumer input s) := by
        unfold exhausted
        simp only [hcorpus, hsilent]
      obtain ⟨n, cs, hbehind, hgoesOn, hfreq, hlast⟩ := exhaustion_behind point
      have hcontext := exhaustedContext_records input graft c
        (s.note (.markFailed :: deleteConsumer input s))
      rw [hstate]
      refine .handled (hbehind.note ?_) hgoesOn (hcontext.1.trans hfreq) (hcontext.2.trans hlast)
      exact cleanup_logs input ⟨⟨rfl, rfl⟩, rfl⟩ ⟨⟨rfl, rfl⟩, rfl⟩ s

variable {input world} in
/-- A run that ends with `MaxRetriesExhausted` ends in one of these ways. -/
theorem runEnd_exhausted {ctx : EngineRunContext} {s : EngineState}
    (h : RunEnd input world (.error (.maxRetriesExhausted, ctx)) s) :
    ExhaustedEnd input world ctx s := by
  generalize hresult : (Except.error (.maxRetriesExhausted, ctx) : EngineResult) = result at h
  cases h with
  | preLoop e hpre =>
      cases hresult
      exact .preLoop rfl rfl
  | wave start ends =>
      subst hresult
      exact waveEnd_exhausted start ends
  | exhausted point => exact exhausted_exhaustedEnd point hresult.symm
  | @refused restart signal c s₁ point refused =>
      cases hresult
      obtain ⟨n, cs, hwave, hsignal, rfl⟩ := repairPoint_wave input world point
      obtain ⟨hfreq, hlast⟩ := guardRepair_records input signal
        (decidedState input world restart n cs)
      refine .handled ⟨hwave, guardRepair_silent input signal _⟩ ?_ hfreq hlast
      rw [hsignal]
      rfl

/-! ## Completeness -/

/-- The context counts every pruned proposal under each constraint it was pruned for, and
names the last resolved selection. -/
structure Complete (ctx : EngineRunContext) (s : EngineState) : Prop where
  freq : ∀ id, tallied ctx.violationFreq id =
    overWaves waves (fun n a => namedIn id (wavePruned input settings n a)) s
  last : ctx.lastSelectionValidCount = lastOf resolvedCount s.log

/-- The controller has given up the run. -/
def givenUp (s : EngineState) : Bool :=
  match lastOf decisionOf s.log with
  | some (_, decision) => decision.isFail
  | none => false

/-- Proposals that name the constraint, in waves whose pruned list was not handed over. -/
def lost (id : String) (s : EngineState) : Nat :=
  overWaves waves (fun n a =>
    if recordsPruned input settings n a then 0 else namedIn id (wavePruned input settings n a)) s

/-- Entries for the constraint that repeat one of the same list, in all other waves. -/
def repeated (id : String) (s : EngineState) : Nat :=
  overWaves waves (fun n a =>
    if recordsPruned input settings n a then repeatsIn id (wavePruned input settings n a)
    else 0) s

/-- What a run has to be like for its diagnostics to be complete. -/
def Diagnosable (s : EngineState) : Prop :=
  if givenUp s then
    (∀ w ∈ s.waves, ∀ e ∈ wavePruned input settings w.2 (waves w.1 w.2),
      e.violatedConstraints = []) ∧
      lastOf resolvedCount s.log = none
  else ∀ id, lost input settings waves id s = repeated input settings waves id s

theorem records_total (id : String) (s : EngineState) :
    overWaves waves (fun n a =>
        if recordsPruned input settings n a then entriesIn id (wavePruned input settings n a)
        else 0) s + lost input settings waves id s =
      overWaves waves (fun n a => namedIn id (wavePruned input settings n a)) s +
        repeated input settings waves id s := by
  unfold lost repeated
  rw [← overWaves_add, ← overWaves_add]
  unfold overWaves
  congr 1
  refine List.map_congr_left fun w _ => ?_
  dsimp only
  cases recordsPruned input settings w.2 (waves w.1 w.2) with
  | true =>
      simp only [↓reduceIte]
      exact entriesIn_eq id _
  | false => simp

/-- No proposal names a constraint exactly when all lists are empty. -/
theorem unnamed_iff (s : EngineState) :
    (∀ id, overWaves waves (fun n a => namedIn id (wavePruned input settings n a)) s = 0) ↔
      ∀ w ∈ s.waves, ∀ e ∈ wavePruned input settings w.2 (waves w.1 w.2),
        e.violatedConstraints = [] := by
  unfold overWaves namedIn
  simp only [List.sum_eq_zero_iff, List.forall_mem_map, List.countP_eq_zero, decide_eq_true_eq]
  constructor
  · intro h w hw e he
    rw [List.eq_nil_iff_forall_not_mem]
    intro v hv
    exact h v.constraintId w hw e he (List.mem_map_of_mem hv)
  · intro h id w hw e he
    rw [h w hw e he]
    exact List.not_mem_nil

variable {input world} in
theorem EndsBehind.waves_eq {restart retryCount : Nat} {cs : MapeKController × EngineState}
    {s : EngineState} (h : EndsBehind input world restart retryCount cs s) :
    s.waves = (decidedState input world restart retryCount cs).waves := by
  obtain ⟨actions, happends, hsilent⟩ := h.appends
  exact (happends.idle fun a ha => (hsilent a ha).1).1

variable {input world} in
theorem EndsBehind.lastOf_eq {α : Type} {value : EngineAction → Option α}
    (reads : ∀ a, decisionOf a = none → value a = none) {restart retryCount : Nat}
    {cs : MapeKController × EngineState} {s : EngineState}
    (h : EndsBehind input world restart retryCount cs s) :
    lastOf value s.log = lastOf value (decidedState input world restart retryCount cs).log := by
  obtain ⟨actions, happends, hsilent⟩ := h.appends
  exact appends_lastOf reads happends fun a ha => (hsilent a ha).2

variable {input world} in
theorem EndsBehind.givenUp_eq {restart retryCount : Nat} {cs : MapeKController × EngineState}
    {s : EngineState} (h : EndsBehind input world restart retryCount cs s) :
    givenUp s = (waveDecision input world restart retryCount cs).1.isFail := by
  have hreads : ∀ a, decisionOf a = none → decisionOf a = none := fun _ hnone => hnone
  unfold givenUp
  rw [h.lastOf_eq hreads, (decidedState_appends input world restart retryCount cs).log,
    lastOf_append, waveActions_lastOf input world hreads]
  rfl

/-- A run that ends with `MaxRetriesExhausted` has complete diagnostics exactly when it is
diagnosable. -/
theorem diagnostics_complete_iff {fuel : Nat} {ctx : EngineRunContext} {s : EngineState}
    (run : runOffline input (withWaves input settings world waves) fuel =
      some (.error (.maxRetriesExhausted, ctx), s)) :
    Complete input settings waves ctx s ↔ Diagnosable input settings waves s := by
  unfold Diagnosable
  cases runEnd_exhausted (runOffline_end_iff.mp ⟨fuel, run⟩) with
  | preLoop before empty =>
      subst before empty
      have hopen : givenUp (initialState input (withWaves input settings world waves)) = false :=
        rfl
      rw [hopen, if_neg Bool.false_ne_true]
      exact ⟨fun _ _ => rfl, fun _ => ⟨fun _ => rfl, rfl⟩⟩
  | givenUp behind fails context =>
      rw [behind.givenUp_eq, fails, if_pos rfl, ← unnamed_iff]
      constructor
      · intro hcomplete
        refine ⟨fun id => ?_, ?_⟩
        · rw [← hcomplete.freq id, context.freq]
          rfl
        · rw [← hcomplete.last, context.last]
      · rintro ⟨hunnamed, hunresolved⟩
        refine ⟨fun id => ?_, ?_⟩
        · rw [hunnamed id, context.freq]
          rfl
        · rw [hunresolved, context.last]
  | @handled restart retryCount cs behind goesOn freq last =>
      have hdiagnosed := (diagnosed_invariant input settings world waves).decided behind.start
      have hrecords : ∀ id, tallied ctx.violationFreq id = overWaves waves (fun n a =>
          if recordsPruned input settings n a then entriesIn id (wavePruned input settings n a)
          else 0) s := by
        intro id
        rw [freq, hdiagnosed.freq id]
        unfold overWaves
        rw [behind.waves_eq]
      have hlast : ctx.lastSelectionValidCount = lastOf resolvedCount s.log := by
        rw [last, hdiagnosed.last, behind.lastOf_eq fun a => resolvedCount_none]
      rw [behind.givenUp_eq, goesOn, if_neg Bool.false_ne_true]
      constructor
      · intro hcomplete id
        have htotal := records_total input settings waves id s
        have hfreq := hcomplete.freq id
        rw [hrecords id] at hfreq
        omega
      · intro hbalanced
        refine ⟨fun id => ?_, hlast⟩
        have htotal := records_total input settings waves id s
        have hid := hbalanced id
        rw [hrecords id]
        omega

end Run

/-! ## A diagnosed run, and one that is given up -/

/-- Every proposal is pruned for one constraint, so the merge has nothing to select from. -/
def prunedAnswers : WaveAnswers :=
  { plainAnswers 5 with
    judged := fun _ => ⟨[], false, (prunedDraft none).violatedConstraints, false⟩
    merge := .earlyExit (.zeroSurvival none none 0 [] []) }

/-- The plain task behind an oracle gate. -/
def gatedInput : EngineInput :=
  { plainInput with
    natsRaw := true
    cfg := { H2AIConfig.reference with oracleGate := ⟨true, "pass", "evict"⟩ } }

/-- The oracle blocks the wave. -/
def blockedAnswers : WaveAnswers := { prunedAnswers with oracleReply := some false }

/-- What the context of a failed run has counted for a constraint. -/
def reported (id : String) : EngineResult → Nat
  | .error (_, ctx) => tallied ctx.violationFreq id
  | .ok _ => 0

/-- The controller gives up a blocked run, and its context names no constraint. -/
theorem blocked_run_undiagnosed :
    ∃ ctx s, runOffline gatedInput (withWaves gatedInput plainSettings
        (plainWorld (plainWave (plainPhases ""))) fun _ _ => blockedAnswers) 1 =
        some (.error (.maxRetriesExhausted, ctx), s) ∧
      ¬ Complete gatedInput plainSettings (fun _ _ => blockedAnswers) ctx s := by
  have heval : (runOffline gatedInput (withWaves gatedInput plainSettings
      (plainWorld (plainWave (plainPhases ""))) fun _ _ => blockedAnswers) 1).map
      (fun ended => (isExhausted ended.1, reported "C-SESSION" ended.1,
        overWaves (fun _ _ => blockedAnswers) (fun n a =>
          namedIn "C-SESSION" (wavePruned gatedInput plainSettings n a)) ended.2)) =
      some (true, 0, 1) := by
    decide +kernel
  obtain ⟨⟨result, s⟩, hrun, hended⟩ := Option.map_eq_some_iff.mp heval
  obtain ⟨hresult, hcounts⟩ := Prod.mk.inj hended
  obtain ⟨hreported, hnamed⟩ := Prod.mk.inj hcounts
  obtain ⟨ctx, rfl⟩ := exhausted_of_isExhausted hresult
  refine ⟨ctx, s, hrun, fun hcomplete => ?_⟩
  have hfreq := hcomplete.freq "C-SESSION"
  dsimp only at hnamed
  rw [hnamed] at hfreq
  exact absurd (hreported.symm.trans hfreq) (by decide)

/-- The retries of this run are exhausted, and every pruned proposal is counted. -/
theorem pruned_run_diagnosed :
    ∃ ctx s, runOffline plainInput (sameWaves prunedAnswers) 1 =
        some (.error (.maxRetriesExhausted, ctx), s) ∧
      Complete plainInput plainSettings (fun _ _ => prunedAnswers) ctx s := by
  have heval : (runOffline plainInput (sameWaves prunedAnswers) 1).map
      (fun ended => (isExhausted ended.1, givenUp ended.2, ended.2.waves)) =
      some (true, false, [(0, 0), (0, 1), (0, 2)]) := by
    decide +kernel
  obtain ⟨⟨result, s⟩, hrun, hended⟩ := Option.map_eq_some_iff.mp heval
  obtain ⟨hresult, hstate⟩ := Prod.mk.inj hended
  obtain ⟨hgoesOn, hwaves⟩ := Prod.mk.inj hstate
  obtain ⟨ctx, rfl⟩ := exhausted_of_isExhausted hresult
  refine ⟨ctx, s, hrun, ?_⟩
  refine (diagnostics_complete_iff plainInput plainSettings
    (plainWorld (plainWave (plainPhases ""))) (fun _ _ => prunedAnswers) hrun).mpr ?_
  unfold Diagnosable
  dsimp only at hgoesOn hwaves
  rw [hgoesOn, if_neg Bool.false_ne_true]
  intro id
  have hrecords : ∀ n ∈ [0, 1, 2],
      recordsPruned plainInput plainSettings n prunedAnswers = true := by decide +kernel
  have hlists : ∀ n ∈ [0, 1, 2], (wavePruned plainInput plainSettings n prunedAnswers).map
      (fun e => e.violatedConstraints.map (·.constraintId)) = [["C-SESSION"]] := by decide +kernel
  have honce : ∀ n ∈ [0, 1, 2],
      repeatsIn id (wavePruned plainInput plainSettings n prunedAnswers) = 0 := by
    intro n hn
    have hlist := congrArg (List.map fun l => l.count id - 1) (hlists n hn)
    rw [List.map_map] at hlist
    have hcount : List.count id ["C-SESSION"] ≤ 1 := List.count_le_length
    refine (congrArg List.sum hlist).trans ?_
    simp only [List.map_cons, List.map_nil, List.sum_cons, List.sum_nil]
    omega
  simp only [List.forall_mem_cons] at hrecords honce
  unfold lost repeated overWaves
  rw [hwaves]
  simp [hrecords, honce]

end ControlPlane.Guarantees.FailureDiagnostics
