import ControlPlane.Source.Engine.ContextRuns
import ControlPlane.Source.Engine.WaveHistory

/-!
# Token accounting

What a run charges to its token budget, against what its calls of explorer adapters
have cost. A wave is charged with the last call of each explorer that delivered a
proposal, once the wave is past the hallucination check. The counter belongs to the
controller, which every iteration makes anew.
-/
namespace ControlPlane.Guarantees.TokenAccounting

open Source Source.Engine Source.MapeK Lib

/-! ## The charge of a wave -/

/-- A phase behind the sum of the costs leaves it as it is, however the wave ends. -/
theorem phase_tokenCost {α : Type} {events : WaveEvents} {step : StepResult α}
    {next : α → WaveRun}
    (h : ∀ out, waveTokenCost (next out).result = events.waveTokenCost) :
    waveTokenCost (phase events step next).result = events.waveTokenCost := by
  cases step with
  | done out => exact h out
  | earlyExit reason => rfl
  | fatal error => rfl

theorem mergePath_tokenCost {input : EngineInput} {carry : WaveCarry} {phases : WavePhases}
    (h : carry.tokenCost = carry.events.waveTokenCost) :
    waveTokenCost (mergePath input carry phases).result = carry.events.waveTokenCost := by
  unfold mergePath
  refine phase_tokenCost fun resolution => ?_
  dsimp only
  split
  · split
    · rfl
    · exact h
  · exact h

theorem afterAudit_tokenCost (input : EngineInput) (corpus : List Constraints.ConstraintDoc)
    (params : OptimizerParams) (phases : WavePhases) (events : WaveEvents) (tauValues : List ℚ)
    (verify : VerifyOutput) (audit : AuditOutput) :
    waveTokenCost (afterAudit input corpus params phases events tauValues verify audit).result =
      events.waveTokenCost := by
  unfold afterAudit
  refine phase_tokenCost fun oracleGatePassed => ?_
  dsimp only
  split
  · rfl
  · exact mergePath_tokenCost rfl

section Wave

variable (input : EngineInput) (settings : ProposalSettings) (retryCount : Nat) (a : WaveAnswers)

/-- What the engine charges for a wave. -/
def waveCharge : Nat :=
  if reachesVerification a then
    ((waveGeneration input settings retryCount a).proposals.map (·.tokenCost)).sum
  else 0

theorem pipelineRun_tokenCost (corpus : List Constraints.ConstraintDoc)
    (params : OptimizerParams) :
    waveTokenCost
        (pipelineRun input corpus params (wavePhases input settings retryCount a)).result =
      waveCharge input settings retryCount a := by
  unfold waveCharge
  cases hreach : reachesVerification a with
  | false =>
      obtain ⟨hevents, hopen⟩ := pipelineRun_stops input settings retryCount corpus params hreach
      unfold waveTokenCost
      split
      · rename_i merge hresolved
        exact absurd hresolved (hopen merge)
      · rw [hevents]
        rfl
  | true =>
      rw [pipelineRun_verifies input settings retryCount corpus params hreach]
      refine phase_tokenCost fun verify => ?_
      exact phase_tokenCost fun audit => afterAudit_tokenCost input corpus params _ _ _ verify audit

/-! ## What the charge misses -/

/-- The calls of an explorer that its proposal does not report. -/
def unchargedCalls (settings : ProposalSettings) (e : Explorer) : List Nat :=
  match (e.run settings).1 with
  | .ok _ => (e.run settings).2.dropLast
  | .error _ => (e.run settings).2

/-- The calls up to the end of a wave that the engine does not charge: those of others
than the explorers, those of a wave that timed out or was stopped by the hallucination
check, those of an explorer that failed, and all but the last of one that did not. -/
def unchargedSpending : List Nat :=
  a.otherCalls ++
    if reachesGeneration a then
      if a.hallucination.isNone && a.generation.timedOut.isNone then
        a.generation.explorers.flatMap (unchargedCalls settings)
      else paidCalls settings a.generation
    else []

theorem explorer_spending (e : Explorer) :
    (e.run settings).2.sum =
      ((proposalEvent input retryCount (e, (e.run settings).1)).toList.map (·.tokenCost)).sum +
        (unchargedCalls settings e).sum := by
  unfold unchargedCalls proposalEvent
  cases hrun : (e.run settings).1 with
  | error failure => simp
  | ok proposal =>
      have hlast := List.getLast?_eq_some_iff.mp (taoRun_cost hrun)
      obtain ⟨front, hcalls⟩ := hlast
      have hsplit : (e.run settings).2 = front ++ [proposal.tokenCost] := hcalls
      rw [hsplit]
      simp [Nat.add_comm]

theorem explorers_spending (explorers : List Explorer) :
    (explorers.flatMap fun e => (e.run settings).2).sum =
      (((explorers.map fun e => (e, (e.run settings).1)).filterMap
        (proposalEvent input retryCount)).map (·.tokenCost)).sum +
        (explorers.flatMap (unchargedCalls settings)).sum := by
  induction explorers with
  | nil => rfl
  | cons e rest ih =>
      have he := explorer_spending input settings retryCount e
      rw [List.flatMap_cons, List.flatMap_cons, List.sum_append, List.sum_append, List.map_cons]
      cases hproposal : proposalEvent input retryCount (e, (e.run settings).1) with
      | none =>
          rw [hproposal] at he
          rw [List.filterMap_cons_none hproposal]
          simp only [Option.toList_none, List.map_nil, List.sum_nil] at he
          omega
      | some proposal =>
          rw [hproposal] at he
          rw [List.filterMap_cons_some hproposal, List.map_cons, List.sum_cons]
          simp only [Option.toList_some, List.map_cons, List.map_nil, List.sum_cons,
            List.sum_nil] at he
          omega

/-- A wave pays what it is charged with, and what the charge misses. -/
theorem waveSpending_split :
    (waveSpending settings a).sum =
      waveCharge input settings retryCount a + (unchargedSpending settings a).sum := by
  unfold waveSpending waveCharge unchargedSpending reachesVerification
  cases hreach : reachesGeneration a with
  | false => simp
  | true =>
      cases hcheck : a.hallucination with
      | some found => simp
      | none =>
          cases htimeout : a.generation.timedOut with
          | some back =>
              simp [waveGeneration, generationRun, explorerResults, htimeout]
          | none =>
              have hsplit := explorers_spending input settings retryCount a.generation.explorers
              simp only [waveGeneration, generationRun, explorerResults, paidCalls, htimeout,
                Option.isSome_none, Option.isNone_none, Bool.and_self, Bool.false_eq_true,
                ↓reduceIte, List.sum_append]
              omega

end Wave

/-! ## The counter -/

section Run

variable (input : EngineInput) (settings : ProposalSettings) (world : EngineWorld)
  (waves : Nat → Nat → WaveAnswers)

/-- What the first waves of an iteration are charged with. -/
def charges (restart count : Nat) : Nat :=
  ((List.range count).map fun i => waveCharge input settings i (waves restart i)).sum

theorem observedWave_tokens (restart retryCount : Nat) (cs : MapeKController × EngineState) :
    (observedWave input (withWaves input settings world waves) restart retryCount cs).tokensUsed =
      min (cs.1.tokensUsed + waveCharge input settings retryCount (waves restart retryCount))
        (2 ^ 64 - 1) := by
  have hcost : waveTokenCost (waveRun input (withWaves input settings world waves) restart
      retryCount cs).result = waveCharge input settings retryCount (waves restart retryCount) :=
    pipelineRun_tokenCost input settings retryCount (waves restart retryCount) _ _
  have hobserved := (observe_keeps cs.1 (waveRun input (withWaves input settings world waves)
    restart retryCount cs).result.events retryCount).tokens
  unfold observedWave MapeKController.observeWaveTokens oomGuard
  dsimp only
  rw [hcost]
  split
  · rw [← hobserved]
    rfl
  · rw [hobserved]

theorem decidedController_tokens (restart retryCount : Nat)
    (cs : MapeKController × EngineState) :
    (decidedController input world restart retryCount cs).tokensUsed =
      (observedWave input world restart retryCount cs).tokensUsed := by
  have hdecided := decide_hintPart input.lib (decisionPoint input world restart retryCount cs).1
    (waveRun input world restart retryCount cs).result.outcome retryCount
    (waveRun input world restart retryCount cs).result.events.filterRatio
  have hwindow : (decisionPoint input world restart retryCount cs).1.tokensUsed =
      (observedWave input world restart retryCount cs).tokensUsed := by
    unfold decisionPoint waveWindow
    dsimp only
    split
    · split
      · split
        · rename_i grounding mandate _
          obtain ⟨context, hinject⟩ := injectWaveContinue_eq
            (observedWave input world restart retryCount cs) grounding mandate
          rw [hinject]
        · rfl
      · rfl
    · rfl
  rw [← hwindow]
  exact congrArg (fun part => part.2.1) hdecided

theorem freshController_tokens (corpus : List Constraints.ConstraintDoc) :
    (freshController input corpus).tokensUsed = 0 := by
  unfold freshController
  cases input.probeResult <;> rfl

/-- The counter holds the charges of the iteration, up to its end. -/
theorem waveStart_tokens {restart retryCount : Nat} {cs : MapeKController × EngineState}
    (start : WaveStart input (withWaves input settings world waves) restart retryCount cs) :
    cs.1.tokensUsed = min (charges input settings waves restart retryCount) (2 ^ 64 - 1) := by
  obtain ⟨s₀, -, -, hstart⟩ := start
  induction retryCount generalizing cs with
  | zero =>
      cases hstart
      exact freshController_tokens input s₀.constraintCorpus
  | succ retryCount ih =>
      obtain ⟨cs₁, hbefore, -, rfl⟩ := waveStart_succ input _ hstart
      have hcounted := ih hbefore
      dsimp only
      rw [decidedController_tokens, observedWave_tokens, hcounted]
      unfold charges
      rw [List.range_succ, List.map_append, List.sum_append, List.map_singleton,
        List.sum_singleton]
      omega

/-! ## Against the spending -/

/-- What the calls of explorer adapters have cost up to the end of these waves. -/
def spent (history : List (Nat × Nat)) : Nat :=
  (history.flatMap fun w => waveSpending settings (waves w.1 w.2)).sum

/-- The counter behind a wave covers what the run has spent. -/
def BudgetCovers (restart retryCount : Nat) (cs : MapeKController × EngineState) : Prop :=
  spent settings waves
      (recordedState input (withWaves input settings world waves) restart retryCount cs).waves ≤
    (observedWave input (withWaves input settings world waves) restart retryCount cs).tokensUsed

/-- Iterations before this one cost nothing, no call of this one is missed by its charge
unless it is free, and the counter can hold the whole sum. -/
structure ChargedInFull (restart : Nat) (history : List (Nat × Nat)) : Prop where
  earlier : ∀ w ∈ history, w.1 < restart →
    ∀ cost ∈ waveSpending settings (waves w.1 w.2), cost = 0
  missed : ∀ w ∈ history, w.1 = restart →
    ∀ cost ∈ unchargedSpending settings (waves w.1 w.2), cost = 0
  fits : spent settings waves history < 2 ^ 64

theorem iteration_spent (restart count : Nat) :
    spent settings waves ((List.range count).map fun i => (restart, i)) =
      charges input settings waves restart count +
        ((List.range count).flatMap fun i => unchargedSpending settings (waves restart i)).sum := by
  unfold spent charges
  induction count with
  | zero => rfl
  | succ count ih =>
      have hlast := waveSpending_split input settings count (waves restart count)
      simp only [List.range_succ, List.map_append, List.flatMap_append, List.sum_append,
        List.map_singleton, List.flatMap_singleton, List.sum_singleton]
      omega

/-- The counter covers the spending exactly when nothing spent escapes the charges. -/
theorem budgetCovers_iff {restart retryCount : Nat} {cs : MapeKController × EngineState}
    (start : WaveStart input (withWaves input settings world waves) restart retryCount cs) :
    BudgetCovers input settings world waves restart retryCount cs ↔
      ChargedInFull settings waves restart (recordedState input
        (withWaves input settings world waves) restart retryCount cs).waves := by
  obtain ⟨s₀, hiter, hwaves⟩ := recorded_waves start
  have hearlier := (iterationStart_waves hiter).2
  have htokens := waveStart_tokens input settings world waves start
  have hspent : spent settings waves (s₀.waves ++
      (List.range (retryCount + 1)).map fun i => (restart, i)) =
      spent settings waves s₀.waves +
        spent settings waves ((List.range (retryCount + 1)).map fun i => (restart, i)) := by
    unfold spent
    rw [List.flatMap_append, List.sum_append]
  have hhere := iteration_spent input settings waves restart (retryCount + 1)
  have hcharges : charges input settings waves restart (retryCount + 1) =
      charges input settings waves restart retryCount +
        waveCharge input settings retryCount (waves restart retryCount) := by
    unfold charges
    rw [List.range_succ, List.map_append, List.sum_append, List.map_singleton, List.sum_singleton]
  unfold BudgetCovers
  rw [observedWave_tokens, htokens, hwaves]
  constructor
  · intro hcovers
    have hzero : spent settings waves s₀.waves = 0 := by omega
    have hmissed : ((List.range (retryCount + 1)).flatMap fun i =>
        unchargedSpending settings (waves restart i)).sum = 0 := by omega
    refine ⟨?_, ?_, by omega⟩
    · intro w hw hlt cost hcost
      rcases List.mem_append.mp hw with hold | hnew
      · unfold spent at hzero
        rw [List.sum_eq_zero_iff] at hzero
        exact hzero cost (List.mem_flatMap.mpr ⟨w, hold, hcost⟩)
      · obtain ⟨i, -, rfl⟩ := List.mem_map.mp hnew
        exact absurd hlt (lt_irrefl _)
    · intro w hw heq cost hcost
      rcases List.mem_append.mp hw with hold | hnew
      · exact absurd heq (hearlier w hold).ne
      · obtain ⟨i, hi, rfl⟩ := List.mem_map.mp hnew
        rw [List.sum_eq_zero_iff] at hmissed
        exact hmissed cost (List.mem_flatMap.mpr ⟨i, hi, hcost⟩)
  · intro hfull
    have hzero : spent settings waves s₀.waves = 0 := by
      unfold spent
      rw [List.sum_eq_zero_iff]
      intro cost hcost
      obtain ⟨w, hw, hcost⟩ := List.mem_flatMap.mp hcost
      exact hfull.earlier w (List.mem_append_left _ hw) (hearlier w hw) cost hcost
    have hmissed : ((List.range (retryCount + 1)).flatMap fun i =>
        unchargedSpending settings (waves restart i)).sum = 0 := by
      rw [List.sum_eq_zero_iff]
      intro cost hcost
      obtain ⟨i, hi, hcost⟩ := List.mem_flatMap.mp hcost
      exact hfull.missed (restart, i)
        (List.mem_append_right _ (List.mem_map.mpr ⟨i, hi, rfl⟩)) rfl cost hcost
    have hfits := hfull.fits
    omega

end Run

/-! ## A run within its budget, and one beyond -/

/-- The answers of a wave that the hallucination check stops. -/
def correlatedAnswers : WaveAnswers :=
  { plainAnswers 5 with hallucination := some ("vary the approach", ⟨1 / 10, 1 / 10, 0⟩) }

/-- A wave that was stopped by the hallucination check has cost nothing, by the counter. -/
theorem correlated_wave_uncharged :
    WaveStart plainInput (sameWaves correlatedAnswers) 0 0 (firstWave correlatedAnswers) ∧
      ¬ BudgetCovers plainInput plainSettings (plainWorld (plainWave (plainPhases "")))
        (fun _ _ => correlatedAnswers) 0 0 (firstWave correlatedAnswers) := by
  refine ⟨firstWave_start correlatedAnswers, ?_⟩
  unfold BudgetCovers
  decide +kernel

theorem plain_wave_charged :
    BudgetCovers plainInput plainSettings (plainWorld (plainWave (plainPhases "")))
        (fun _ _ => plainAnswers 5) 0 0 (firstWave (plainAnswers 5)) := by
  refine (budgetCovers_iff plainInput plainSettings (plainWorld (plainWave (plainPhases "")))
    (fun _ _ => plainAnswers 5) (firstWave_start (plainAnswers 5))).mpr ⟨?_, ?_, ?_⟩
  · intro w _ hlt
    exact absurd hlt (Nat.not_lt_zero _)
  · intro w _ _ cost hcost
    have hnone : unchargedSpending plainSettings (plainAnswers 5) = [] := by decide +kernel
    rw [hnone] at hcost
    cases hcost
  · decide +kernel

end ControlPlane.Guarantees.TokenAccounting
