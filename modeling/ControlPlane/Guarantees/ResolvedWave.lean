import ControlPlane.Source.Engine.EngineLogs
import ControlPlane.Source.MapeK.ControllerRuns

/-!
# Resolved waves

What becomes of a wave that resolved. The controller answers it with `Return`
unless the instability detector signals, or the quorum of the tiered exit is
missed while retries and budget remain. A run ends in `MaxRetriesExhausted`
only when every resolved wave of it was given up in one of these two ways.
-/
namespace ControlPlane.Guarantees.ResolvedWave

open Source.Engine Source.MapeK Source.Config Source.Constraints Lib

/-! ## One decision -/

/-- The tiered exit asks for another wave: its quorum is missed, and retries and
budget remain. -/
structure QuorumMissed (c : MapeKController) (merge : MergeOutput) (retryCount : Nat) : Prop where
  enabled : c.cfg.tieredExit.enabled = true
  missed : c.kAccepted merge < c.cfg.tieredExit.kForWave c.currentParams.nAgents
  retriesLeft : retryCount < c.cfg.maxAutonomicRetries
  budgetLeft : c.budgetExhausted = false ∧ c.budgetReached = false

/-- The instability detector is on and signals. -/
def Unstable (lib : ControllerLib) (c : MapeKController) (retryCount : Nat)
    (signal : InstabilitySignal) : Prop :=
  c.cfg.gapK1.enabled = true ∧ (c.instability lib retryCount).signal = some signal

/-- What the controller answers to a resolved wave. -/
def ResolvedAnswer (lib : ControllerLib) (c : MapeKController) (merge : MergeOutput)
    (retryCount : Nat) : MapeKDecision → Prop
  | .return out => (∀ signal, ¬ Unstable lib c retryCount signal) ∧
      ¬ QuorumMissed c merge retryCount ∧ out.resolvedOutput = merge.resolvedOutput
  | .retry => (∀ signal, ¬ Unstable lib c retryCount signal) ∧ QuorumMissed c merge retryCount
  | .specAmbiguous signal => Unstable lib c retryCount signal
  | .fail _ _ => False
  | .complexityOverflow _ _ _ => False

theorem checkInstability_signal (lib : ControllerLib) (c : MapeKController) (retryCount : Nat)
    (signal : InstabilitySignal) :
    (c.checkInstability lib retryCount).1 = some signal ↔ Unstable lib c retryCount signal := by
  unfold MapeKController.checkInstability Unstable
  by_cases henabled : c.cfg.gapK1.enabled = true
  · simp only [henabled, ↓reduceIte, true_and]
  · simp only [henabled, Bool.false_eq_true, ↓reduceIte, false_and]
    exact iff_of_false (by simp) id

/-- The gates of a resolved wave leave the quorum alone and settle the budget flag. -/
theorem tieredExitRetries_iff (c : MapeKController) (merge : MergeOutput) (retryCount : Nat) :
    (c.noteBudget.noteConvergence merge retryCount).tieredExitRetries merge retryCount = true ↔
      QuorumMissed c merge retryCount := by
  have hfields : ∀ d : MapeKController,
      (d.noteConvergence merge retryCount).cfg = d.cfg ∧
      (d.noteConvergence merge retryCount).currentParams = d.currentParams ∧
      (d.noteConvergence merge retryCount).budgetExhausted = d.budgetExhausted := by
    intro d
    unfold MapeKController.noteConvergence
    split <;> exact ⟨rfl, rfl, rfl⟩
  obtain ⟨hcfg, hparams, hflag⟩ := hfields c.noteBudget
  have hbudget : c.noteBudget.cfg = c.cfg ∧ c.noteBudget.currentParams = c.currentParams ∧
      (c.noteBudget.budgetExhausted = false ↔
        c.budgetExhausted = false ∧ c.budgetReached = false) := by
    unfold MapeKController.noteBudget
    cases hreached : c.budgetReached with
    | true => exact ⟨rfl, rfl, by simp⟩
    | false => exact ⟨rfl, rfl, by simp⟩
  have haccepted : (c.noteBudget.noteConvergence merge retryCount).kAccepted merge =
      c.kAccepted merge := by
    unfold MapeKController.kAccepted
    rw [hcfg, hbudget.1]
  unfold MapeKController.tieredExitRetries
  rw [haccepted, hcfg, hparams, hflag, hbudget.1, hbudget.2.1]
  simp only [Bool.and_eq_true, decide_eq_true_eq, Bool.not_eq_true', hbudget.2.2]
  constructor
  · rintro ⟨⟨⟨henabled, hmissed⟩, hretries⟩, hleft⟩
    exact ⟨henabled, hmissed, hretries, hleft⟩
  · intro h
    exact ⟨⟨⟨h.enabled, h.missed⟩, h.retriesLeft⟩, h.budgetLeft⟩

/-- The detectors in front of the outcome do not change the quorum. -/
theorem settled_quorumMissed {c c' : MapeKController} (h : Settled c c') (merge : MergeOutput)
    (retryCount : Nat) : QuorumMissed c' merge retryCount ↔ QuorumMissed c merge retryCount := by
  obtain ⟨cards, ambiguity, frozen, bypassed, rfl⟩ := h.eq
  constructor
  · rintro ⟨h1, h2, h3, h4⟩
    exact ⟨h1, h2, h3, h4⟩
  · rintro ⟨h1, h2, h3, h4⟩
    exact ⟨h1, h2, h3, h4⟩

theorem decide_resolvedAnswer (lib : ControllerLib) (c : MapeKController) (merge : MergeOutput)
    (retryCount : Nat) (filterRatio : ℚ) :
    ResolvedAnswer lib c merge retryCount
      (c.decide lib (.resolved merge) retryCount filterRatio).1 := by
  obtain ⟨c', hsettled, heq⟩ := decide_eq lib c (.resolved merge) retryCount filterRatio
  rw [heq]
  cases hsignal : (c.checkInstability lib retryCount).1 with
  | some signal => exact (checkInstability_signal lib c retryCount signal).mp hsignal
  | none =>
      have hstable : ∀ signal, ¬ Unstable lib c retryCount signal := by
        intro signal hunstable
        rw [(checkInstability_signal lib c retryCount signal).mpr hunstable] at hsignal
        cases hsignal
      rcases decideResolved_cases c' merge retryCount with
        ⟨htiered, hretry⟩ | ⟨htiered, out, hreturn, htext⟩
      · have hmissed := (tieredExitRetries_iff c' merge retryCount).mp htiered
        simp only [hretry]
        exact ⟨hstable, (settled_quorumMissed hsettled merge retryCount).mp hmissed⟩
      · simp only [hreturn]
        refine ⟨hstable, ?_, htext⟩
        intro hmissed
        have hmissed' := (settled_quorumMissed hsettled merge retryCount).mpr hmissed
        rw [(tieredExitRetries_iff c' merge retryCount).mpr hmissed'] at htiered
        cases htiered

/-! ## The controller of a run -/

theorem oomGuard_later (cfg : OomGuardConfig) (retryCount : Nat) (rssMb : Option Nat)
    (c : MapeKController) : Later c (oomGuard cfg retryCount rssMb c) := by
  unfold oomGuard
  split
  · exact applyOp_later asciiLib c .markOomAbort
  · exact (Keeps.refl c).later

theorem waveWindow_later (input : EngineInput) (world : WaveWorld) (c : MapeKController)
    (s : EngineState) : Later c (waveWindow input world c s).1 := by
  unfold waveWindow
  dsimp only
  split
  · split
    · split
      · exact applyOp_later input.lib c (.injectWaveContinue _ _)
      · exact (Keeps.refl c).later
    · exact (Keeps.refl c).later
  · exact (Keeps.refl c).later

section Run

variable (input : EngineInput) (world : EngineWorld)

theorem decisionPoint_later (restart retryCount : Nat) (cs : MapeKController × EngineState) :
    Later cs.1 (decisionPoint input world restart retryCount cs).1 := by
  have hobserved := (observe_keeps cs.1
    (waveRun input world restart retryCount cs).result.events retryCount).later
  have hguarded := hobserved.trans (oomGuard_later input.cfg.oomGuard retryCount
    (world.wave restart retryCount).rssMb _)
  have hcharged := hguarded.trans (applyOp_later input.lib _
    (.observeWaveTokens (waveTokenCost (waveRun input world restart retryCount cs).result)))
  exact hcharged.trans (waveWindow_later input (world.wave restart retryCount) _ _)

theorem decidedController_later (restart retryCount : Nat)
    (cs : MapeKController × EngineState) :
    Later cs.1 (decidedController input world restart retryCount cs) := by
  have hdecided := (decisionPoint_later input world restart retryCount cs).trans
    (decide_later input.lib _ (waveRun input world restart retryCount cs).result.outcome
      retryCount (waveRun input world restart retryCount cs).result.events.filterRatio)
  exact hdecided.trans (applyOp_later input.lib _ .takePendingAmbiguityEvents)

variable {input world}

/-- The controller of every wave reads the config of the run. -/
theorem waveStart_cfg {restart retryCount : Nat} {cs : MapeKController × EngineState}
    (h : WaveStart input world restart retryCount cs) : cs.1.cfg = input.cfg := by
  obtain ⟨s₀, -, -, hstart⟩ := h
  have hinit : (freshController input s₀.constraintCorpus).cfg = input.cfg := by
    unfold freshController
    split <;> rfl
  have hstep : ∀ (i : Nat) (cs cs' : MapeKController × EngineState), cs.1.cfg = input.cfg →
      waveBody input world restart i cs = .next cs' → cs'.1.cfg = input.cfg := by
    intro i cs cs' hcfg hnext
    have hwave := waveBody_step input world restart i cs
    rw [hnext] at hwave
    cases hwave with
    | retry _ => exact (decidedController_later input world restart i cs).cfg.trans hcfg
  exact roundStart_holds hstep hinit hstart

/-! ## Whole runs -/

/-- A resolved wave was given up: the detector signalled, or the tiered exit asked
for another wave. -/
def GivenUp (input : EngineInput) (retryCount : Nat) (decision : MapeKDecision) : Prop :=
  (∃ signal, decision = .specAmbiguous signal ∧ input.cfg.gapK1.enabled = true) ∨
    (decision = .retry ∧ input.cfg.tieredExit.enabled = true ∧
      retryCount < input.cfg.maxAutonomicRetries)

/-- A logged decision on a resolved wave gave it up. -/
def OnlyGivenUp (input : EngineInput) : EngineAction → Prop
  | .decision retryCount (.resolved _) decision => GivenUp input retryCount decision
  | _ => True

theorem givenUp_of_goesOn {restart retryCount : Nat} {cs : MapeKController × EngineState}
    (start : WaveStart input world restart retryCount cs)
    (goesOn : (waveDecision input world restart retryCount cs).1.isReturn = false)
    {merge : MergeOutput}
    (resolved : (waveRun input world restart retryCount cs).result.outcome = .resolved merge) :
    GivenUp input retryCount (waveDecision input world restart retryCount cs).1 := by
  have hcfg : (decisionPoint input world restart retryCount cs).1.cfg = input.cfg :=
    (decisionPoint_later input world restart retryCount cs).cfg.trans (waveStart_cfg start)
  have hanswer := decide_resolvedAnswer input.lib
    (decisionPoint input world restart retryCount cs).1 merge retryCount
    (waveRun input world restart retryCount cs).result.events.filterRatio
  rw [← resolved] at hanswer
  change ResolvedAnswer _ _ _ _ (waveDecision input world restart retryCount cs).1 at hanswer
  cases hdecision : (waveDecision input world restart retryCount cs).1 with
  | «return» out =>
      rw [hdecision] at goesOn
      cases goesOn
  | retry =>
      rw [hdecision] at hanswer
      have hmissed := hanswer.2
      exact Or.inr ⟨rfl, hcfg ▸ hmissed.enabled, hcfg ▸ hmissed.retriesLeft⟩
  | specAmbiguous signal =>
      rw [hdecision] at hanswer
      exact Or.inl ⟨signal, rfl, hcfg ▸ hanswer.1⟩
  | fail e ctx =>
      rw [hdecision] at hanswer
      exact hanswer.elim
  | complexityOverflow score rationale graftFirst =>
      rw [hdecision] at hanswer
      exact hanswer.elim

theorem admits_onlyGivenUp : Admits input world (OnlyGivenUp input) where
  wave := fun _ => trivial
  postSelection := fun _ => trivial
  decision := by
    intro restart retryCount cs start goesOn
    cases houtcome : (waveRun input world restart retryCount cs).result.outcome with
    | resolved merge => exact givenUp_of_goesOn start goesOn houtcome
    | earlyExit reason => trivial
    | fatal e => trivial
  repairGuard := fun _ => trivial
  repair := fun _ _ => trivial

/-- A returned wave does not end in exhaustion. -/
theorem returnArm_ne_exhausted {world : GateWorld} {out : EngineOutput}
    {s s' : EngineState} {ctx : EngineRunContext} :
    returnArm input world out s ≠ (.error (.maxRetriesExhausted, ctx), s') := by
  have hresolve : ∀ s, resolveRun input world out s ≠ (.error (.maxRetriesExhausted, ctx), s') := by
    intro s h
    rcases resolveRun_cases input world out s with ⟨what, s₁, -, heq⟩ | ⟨s₁, -, heq⟩
    · rw [heq] at h
      cases h
    · rw [heq] at h
      cases h
  intro h
  rcases returnArm_cases input world out s with
    ⟨-, heq⟩ | ⟨-, -, heq⟩ | ⟨-, -, operatorId, note, heq⟩
  · exact hresolve _ (heq ▸ h)
  · exact hresolve _ (heq ▸ h)
  · rw [heq] at h
    cases h

end Run

/-- **Resolved waves.** Every decision on a resolved wave, in any state, is one of
three answers; and a run that ends exhausted has given up each of its resolved waves. -/
theorem resolved_wave_answers (input : EngineInput) (world : EngineWorld) :
    (∀ lib c merge retryCount filterRatio, ResolvedAnswer lib c merge retryCount
      (c.decide lib (.resolved merge) retryCount filterRatio).1) ∧
    ∀ fuel ctx s, runOffline input world fuel = some (.error (.maxRetriesExhausted, ctx), s) →
      ∀ retryCount merge decision, .decision retryCount (.resolved merge) decision ∈ s.log →
        GivenUp input retryCount decision := by
  refine ⟨decide_resolvedAnswer, ?_⟩
  intro fuel ctx s hrun retryCount merge decision hmem
  rcases runEnds_logs admits_onlyGivenUp trivial trivial trivial
      (runOffline_ends input world hrun) with
    hlogs | ⟨restart, retryCount', cs, out, -, -, hreturn⟩
  · exact hlogs _ hmem
  · exact absurd hreturn returnArm_ne_exhausted

/-- A run that was evaluated: it ends exhausted and has logged an action of the kind. -/
theorem exhausted_with_action {input : EngineInput} {world : EngineWorld} {fuel : Nat}
    {kind : EngineAction → Bool}
    (h : (runOffline input world fuel).map
      (fun ended => (isExhausted ended.1, ended.2.log.any kind)) = some (true, true)) :
    ∃ ctx s, runOffline input world fuel = some (.error (.maxRetriesExhausted, ctx), s) ∧
      ∃ a ∈ s.log, kind a = true := by
  obtain ⟨⟨result, s⟩, hrun, hended⟩ := Option.map_eq_some_iff.mp h
  obtain ⟨hresult, hlog⟩ := Prod.mk.inj hended
  obtain ⟨ctx, rfl⟩ := exhausted_of_isExhausted hresult
  exact ⟨ctx, s, hrun, List.any_eq_true.mp hlog⟩

/-- The instability detector is on. -/
def detectingInput : EngineInput :=
  { plainInput with
    cfg := { H2AIConfig.reference with gapK1 := ⟨true, true, 1 / 10, 9 / 10, 5, 3⟩ }
    constraintCorpus := [sessionDoc] }

/-- No draft survives the first wave; the second resolves although one of its drafts
was pruned for another reason. -/
def recoveringWorld : EngineWorld :=
  { plainWorld (prunedWave (some "lifetime missing")) with
    wave := fun _ retryCount =>
      if retryCount = 0 then prunedWave (some "lifetime missing")
      else plainWave { plainPhases "answer" with
        audit := .done ⟨[], [prunedDraft (some "issuer unclear")], []⟩ } }

def isResolvedDecision : EngineAction → Bool
  | .decision _ (.resolved _) _ => true
  | _ => false

def isAmbiguousDecision : EngineAction → Bool
  | .decision _ (.resolved _) (.specAmbiguous _) => true
  | _ => false

/-- A resolved wave is answered with `SpecAmbiguous`, and the run ends exhausted. -/
theorem resolved_wave_found_ambiguous :
    ∃ ctx s retryCount merge signal,
      runOffline detectingInput recoveringWorld 1 = some (.error (.maxRetriesExhausted, ctx), s) ∧
      .decision retryCount (.resolved merge) (.specAmbiguous signal) ∈ s.log := by
  have heval : (runOffline detectingInput recoveringWorld 1).map
      (fun ended => (isExhausted ended.1, ended.2.log.any isAmbiguousDecision)) =
        some (true, true) := by
    decide +kernel
  obtain ⟨ctx, s, hrun, a, ha, hdecision⟩ := exhausted_with_action heval
  unfold isAmbiguousDecision at hdecision
  split at hdecision
  · exact ⟨ctx, s, _, _, _, hrun, ha⟩
  · cases hdecision

/-- The tiered exit is on: the first wave resolves without a quorum. -/
def tieredInput : EngineInput :=
  { plainInput with
    cfg := { H2AIConfig.reference with tieredExit := ⟨true, 1, 5, 1 / 2, 85 / 100⟩ } }

def quorumlessWorld : EngineWorld :=
  { plainWorld (plainWave (plainPhases "answer")) with
    wave := fun _ retryCount =>
      if retryCount = 0 then plainWave (plainPhases "answer")
      else plainWave { plainPhases "" with
        merge := .earlyExit (.zeroSurvival none none 0 [] []) } }

/-- A run whose resolved wave was given up for a quorum that never came. -/
theorem quorumless_wave_given_up :
    ∃ ctx s retryCount merge decision,
      runOffline tieredInput quorumlessWorld 1 = some (.error (.maxRetriesExhausted, ctx), s) ∧
      .decision retryCount (.resolved merge) decision ∈ s.log ∧
      GivenUp tieredInput retryCount decision := by
  have heval : (runOffline tieredInput quorumlessWorld 1).map
      (fun ended => (isExhausted ended.1, ended.2.log.any isResolvedDecision)) =
        some (true, true) := by
    decide +kernel
  obtain ⟨ctx, s, hrun, a, ha, hdecision⟩ := exhausted_with_action heval
  unfold isResolvedDecision at hdecision
  split at hdecision
  · exact ⟨ctx, s, _, _, _, hrun, ha,
      (resolved_wave_answers tieredInput quorumlessWorld).2 1 ctx s hrun _ _ _ ha⟩
  · cases hdecision

end ControlPlane.Guarantees.ResolvedWave

/-!
# Oracle hard gate of the engine

`run_post_selection` is called on the merge path of a wave. A run returns a text
that it did not reject whenever the text is the one of a merge: the other three
ways to a text (Phase 5a, the terminal synthesis wave, a patch of the epistemic
stage) come past the gate.
-/
namespace ControlPlane.Guarantees.OracleGate

open Source.Engine Source.MapeK Source.Config Source.Constraints Source.Verification Lib

/-! ## Resolved waves -/

/-- A wave that resolves has passed the phase in front. -/
theorem phase_resolved {α : Type} {events : WaveEvents} {step : StepResult α}
    {next : α → WaveRun} {merge : MergeOutput}
    (h : (phase events step next).result.outcome = .resolved merge) :
    ∃ out, step = .done out ∧ phase events step next = next out := by
  cases step with
  | done out => exact ⟨out, rfl, rfl⟩
  | earlyExit reason => cases h
  | fatal error => cases h

/-- The text Phase 5a resolves a wave with, once the audit is done. -/
def phase5aText (input : EngineInput) (corpus : List ConstraintDoc) (phases : WavePhases) :
    Option String :=
  match phases.audit with
  | .done audit =>
      (synthesisRun input corpus audit.synthesisCandidates phases.synthesis).resolvedText
  | _ => none

/-- The winner went through `run_post_selection` and was not evicted. -/
def Submitted (calls : List PostSelectionCall) (text : String) : Prop :=
  ∃ call ∈ calls, call.winnerText = text ∧ call.decision ≠ .evict

theorem mergePath_submits {input : EngineInput} (enabled : input.cfg.oracleGate.enabled = true)
    {carry : WaveCarry} {phases : WavePhases} {merge : MergeOutput}
    (h : (mergePath input carry phases).result.outcome = .resolved merge) :
    Submitted (mergePath input carry phases).postSelections merge.resolvedOutput := by
  unfold mergePath at h ⊢
  dsimp only at h ⊢
  obtain ⟨resolution, -, heq⟩ := phase_resolved h
  rw [heq] at h ⊢
  simp only [enabled, ↓reduceIte] at h ⊢
  split at h
  · cases h
  · rename_i hkept
    cases h
    rw [if_neg hkept]
    exact ⟨_, List.mem_singleton.mpr rfl, rfl, hkept⟩

/-- Without a Phase 5a text every resolved wave has submitted its winner. -/
theorem pipelineRun_submits {input : EngineInput}
    (enabled : input.cfg.oracleGate.enabled = true) {corpus : List ConstraintDoc}
    {params : OptimizerParams} {phases : WavePhases} {merge : MergeOutput}
    (merged : phase5aText input corpus phases = none)
    (h : (pipelineRun input corpus params phases).result.outcome = .resolved merge) :
    Submitted (pipelineRun input corpus params phases).postSelections merge.resolvedOutput := by
  unfold pipelineRun at h ⊢
  obtain ⟨_, -, htopology⟩ := phase_resolved h
  rw [htopology] at h ⊢
  obtain ⟨_, -, hmultiply⟩ := phase_resolved h
  rw [hmultiply] at h ⊢
  obtain ⟨_, -, hdiversity⟩ := phase_resolved h
  rw [hdiversity] at h ⊢
  obtain ⟨generated, -, hgeneration⟩ := phase_resolved h
  rw [hgeneration] at h ⊢
  obtain ⟨gen, -, hhallucination⟩ := phase_resolved h
  rw [hhallucination] at h ⊢
  dsimp only at h ⊢
  obtain ⟨verify, -, hverify⟩ := phase_resolved h
  rw [hverify] at h ⊢
  obtain ⟨audit, haudit, hafter⟩ := phase_resolved h
  rw [hafter] at h ⊢
  simp only [phase5aText, haudit] at merged
  unfold afterAudit at h ⊢
  obtain ⟨gatePassed, -, horacle⟩ := phase_resolved h
  rw [horacle] at h ⊢
  simp only [merged] at h ⊢
  exact mergePath_submits enabled h

/-! ## Notices -/

/-- The epistemic stage keeps the text it was given: it is off, it recovers nothing,
it falls back, or the patch is the text itself. -/
def Unpatched (cfg : EpistemicQualityConfig) (answers : EpistemicAnswers) (text : String) : Prop :=
  cfg.enabled = true → cfg.recoveryEnabled = true →
    (answers.noneVerified = true ∧ cfg.zeroValidProposalsPolicy = "fail") ∨
      answers.patched.getD text = text

/-- `final` is `text` up to the notices the epistemic stage puts around it. -/
def UpToNotices (text final : String) : Prop :=
  ∃ mode answers, final = renderOutput mode answers text

theorem upToNotices_refl (text : String) (answers : EpistemicAnswers) :
    UpToNotices text text := ⟨"passthrough", answers, by simp [renderOutput]⟩

theorem returnedText_upToNotices {input : EngineInput} {world : GateWorld} {out : EngineOutput}
    (unpatched : Unpatched input.cfg.epistemicQuality world.epistemic out.resolvedOutput) :
    UpToNotices out.resolvedOutput (returnedText input world out) := by
  have hrefl := upToNotices_refl out.resolvedOutput world.epistemic
  unfold returnedText
  cases henabled : input.cfg.epistemicQuality.enabled with
  | false => exact hrefl
  | true =>
      simp only [↓reduceIte]
      unfold runEpistemicStage
      dsimp only
      split
      · exact hrefl
      · rename_i hkept
        cases hrecovery : input.cfg.epistemicQuality.recoveryEnabled with
        | false => exact ⟨_, _, rfl⟩
        | true =>
            rcases unpatched henabled hrecovery with hfallback | hsame
            · exact absurd hfallback hkept
            · simp only [↓reduceIte, hsame]
              exact ⟨_, _, rfl⟩

/-! ## Whole runs -/

/-- The log shows that the oracle let the returned text pass. -/
def OracleSeen (log : List EngineAction) (final : String) : Prop :=
  ∃ call, .postSelection call ∈ log ∧ call.decision ≠ .evict ∧ UpToNotices call.winnerText final

/-- Every text the run can return comes from a merge: no returned wave was resolved
by Phase 5a or patched afterwards, and no terminal synthesis wave delivers. -/
structure MergedOnly (input : EngineInput) (world : EngineWorld) : Prop where
  merged : ∀ {restart retryCount cs out}, WaveStart input world restart retryCount cs →
    (waveDecision input world restart retryCount cs).1 = .return out →
    phase5aText input cs.2.constraintCorpus (world.wave restart retryCount).phases = none
  unpatched : ∀ {restart retryCount cs out}, WaveStart input world restart retryCount cs →
    (waveDecision input world restart retryCount cs).1 = .return out →
    Unpatched input.cfg.epistemicQuality (world.wave restart retryCount).gate.epistemic
      out.resolvedOutput
  silent : ∀ {restart graft c s}, ExhaustionPoint input world restart graft c s →
    synthesisWave input (world.synthesis restart) graft c s.constraintCorpus = none

/-- A returned wave that was merged has its call in the log. -/
theorem decided_submits {input : EngineInput} {world : EngineWorld}
    (enabled : input.cfg.oracleGate.enabled = true) {restart retryCount : Nat}
    {cs : MapeKController × EngineState} {out : EngineOutput}
    (merged : phase5aText input cs.2.constraintCorpus
      (world.wave restart retryCount).phases = none)
    (decided : (waveDecision input world restart retryCount cs).1 = .return out) :
    ∃ call, .postSelection call ∈ (decidedState input world restart retryCount cs).log ∧
      call.decision ≠ .evict ∧ call.winnerText = out.resolvedOutput := by
  obtain ⟨merge, houtcome, htext⟩ := decide_return decided
  obtain ⟨call, hcall, hwinner, hkept⟩ := pipelineRun_submits enabled merged houtcome
  refine ⟨call, ?_, hkept, hwinner.trans htext.symm⟩
  rw [(decidedState_appends input world restart retryCount cs).log]
  refine List.mem_append_right _ (List.mem_append_left _ (List.mem_cons_of_mem _ ?_))
  exact List.mem_map.mpr ⟨call, hcall, rfl⟩

/-- What a successful `Return` arm leaves: the text and the log in front of it. -/
theorem returnArm_ok {input : EngineInput} {world : GateWorld} {out out' : EngineOutput}
    {s s' : EngineState} (h : returnArm input world out s = (.ok out', s')) :
    out'.resolvedOutput = returnedText input world out := by
  have hresolve : ∀ {s}, resolveRun input world out s = (.ok out', s') →
      out'.resolvedOutput = returnedText input world out := by
    intro s h
    rcases resolveRun_cases input world out s with ⟨what, s₁, -, heq⟩ | ⟨s₁, -, heq⟩
    · rw [heq] at h
      cases h
    · rw [heq] at h
      cases h
      rfl
  rcases returnArm_cases input world out s with
    ⟨-, heq⟩ | ⟨-, -, heq⟩ | ⟨-, -, operatorId, note, heq⟩
  · exact hresolve (heq ▸ h)
  · exact hresolve (heq ▸ h)
  · rw [heq] at h
    cases h

/-- **The oracle gate dominates success.** In every run whose texts all come from a
merge, a successful result was shown to the oracle and not evicted. -/
theorem oracle_gate_dominates_success (input : EngineInput) (world : EngineWorld)
    (enabled : input.cfg.oracleGate.enabled = true) (only : MergedOnly input world) :
    ∀ fuel out s, runOffline input world fuel = some (.ok out, s) →
      OracleSeen s.log out.resolvedOutput := by
  intro fuel out s hrun
  rcases runOffline_ok input world hrun with
    ⟨restart, retryCount, cs, returned, start, decided, hreturn⟩ |
    ⟨restart, graft, c, s₁, hpoint, hdelivers⟩
  · obtain ⟨call, hcall, hkept, hwinner⟩ :=
      decided_submits enabled (only.merged start decided) decided
    obtain ⟨actions, happends, -⟩ := returnArm_appends input
      (world.wave restart retryCount).gate returned
      (decidedState input world restart retryCount cs)
    rw [hreturn] at happends
    refine ⟨call, ?_, hkept, ?_⟩
    · rw [happends.log]
      exact List.mem_append_left _ hcall
    · rw [returnArm_ok hreturn, hwinner]
      exact returnedText_upToNotices (only.unpatched start decided)
  · exact absurd (only.silent hpoint) hdelivers

/-- A task with the oracle gate on and a synthesis adapter. -/
def guardedInput : EngineInput :=
  { plainInput with
    cfg := { H2AIConfig.reference with oracleGate := ⟨true, "pass", "evict"⟩ }
    natsRaw := true
    synthesisAdapter := true }

/-- Two drafts survive, Phase 5a joins them, and the oracle would reject any text. -/
def joinedWave : WaveWorld :=
  plainWave { plainPhases "" with
    audit := .done
      ⟨[⟨"task", "explorer-1", 0, 0, "draft", 1⟩, ⟨"task", "explorer-2", 0, 0, "draft", 1⟩], [], []⟩
    synthesis := ⟨false, some ("joined draft", 1), "explorer-s", plainVerifier, 0⟩
    postSelectionReply := fun _ => some false }

def isPostSelection : EngineAction → Bool
  | .postSelection _ => true
  | _ => false

/-- The joined text is returned, and the oracle never saw it. -/
theorem phase5a_skips_oracle :
    ∃ out s, runOffline guardedInput (plainWorld joinedWave) 1 = some (.ok out, s) ∧
      ¬ OracleSeen s.log out.resolvedOutput := by
  have heval : (runOffline guardedInput (plainWorld joinedWave) 1).map
      (fun ended => (ended.1.toOption.isSome, ended.2.log.any isPostSelection)) =
        some (true, false) := by
    decide +kernel
  obtain ⟨⟨result, s⟩, hrun, hended⟩ := Option.map_eq_some_iff.mp heval
  obtain ⟨hok, hlog⟩ := Prod.mk.inj hended
  cases result with
  | error e => cases hok
  | ok out =>
      refine ⟨out, s, hrun, ?_⟩
      rintro ⟨call, hcall, -⟩
      have hnot := List.any_eq_false.mp hlog _ hcall
      simp [isPostSelection] at hnot

/-- A merged answer passes the gate before it is returned. -/
theorem merged_answer_is_seen :
    let world := plainWorld (plainWave (plainPhases "answer"))
    (runOffline guardedInput world 1).map (fun ended => ended.1.toOption.isSome) = some true ∧
      ∀ fuel out s, runOffline guardedInput world fuel = some (.ok out, s) →
        OracleSeen s.log out.resolvedOutput := by
  refine ⟨by decide +kernel, ?_⟩
  refine oracle_gate_dominates_success guardedInput _ rfl ⟨?_, ?_, ?_⟩
  · intro restart retryCount cs out _ _
    rfl
  · intro restart retryCount cs out _ _ _ hrecovery
    cases hrecovery
  · intro restart graft c s _
    exact synthesisWave_unanswered rfl rfl rfl graft c s.constraintCorpus

end ControlPlane.Guarantees.OracleGate
