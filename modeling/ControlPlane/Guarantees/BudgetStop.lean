import ControlPlane.Source.MapeK.ExitRoutes

/-!
# Budget stop of the MAPE-K controller

Over every run of the controller: once a memory abort was marked or the token
budget reached its abort fraction, a decision is free of `Retry` exactly when
it takes one of the routes that end the wave loop for another reason. The flag
is consulted by the tiered exit of a resolved wave only, so every other early
exit is retried all the same.
-/
namespace ControlPlane.Guarantees.BudgetStop

open Source.MapeK Source.Config Source.Constraints Source.Verification

/-! ## The stop persists -/

/-- The retry stop: the flag, or the abort fraction of the cost guard. -/
def Stopped (c : MapeKController) : Prop :=
  c.budgetExhausted = true ∨ c.budgetReached = true

theorem fractionUsed_mono (cfg : CostGuardConfig) {a b : Nat} (h : a ≤ b) :
    cfg.fractionUsed a ≤ cfg.fractionUsed b := by
  unfold CostGuardConfig.fractionUsed
  split
  · exact le_rfl
  · have hcast : (a : ℚ) ≤ b := by exact_mod_cast h
    exact div_le_div_of_nonneg_right hcast (Nat.cast_nonneg _)

theorem budgetReached_later {c c' : MapeKController} (h : Later c c')
    (range : c.tokensUsed < 2 ^ 64) (reached : c.budgetReached = true) :
    c'.budgetReached = true := by
  simp only [MapeKController.budgetReached, Bool.and_eq_true, decide_eq_true_eq] at reached ⊢
  rw [h.cfg]
  exact ⟨reached.1, reached.2.trans (fractionUsed_mono _ (h.tokens range).1)⟩

theorem stopped_later {c c' : MapeKController} (h : Later c c')
    (range : c.tokensUsed < 2 ^ 64) (stopped : Stopped c) : Stopped c' := by
  rcases stopped with hflag | hreached
  · exact Or.inl (h.flag hflag)
  · exact Or.inr (budgetReached_later h range hreached)

/-- A memory abort anywhere in a run leaves the flag set at its end. -/
theorem stopped_of_oomAbort (lib : ControllerLib) (c : MapeKController)
    {ops : List ControllerOp} (h : .markOomAbort ∈ ops) :
    (replay lib c ops).budgetExhausted = true := by
  induction ops generalizing c with
  | nil => simp at h
  | cons op rest ih =>
      rcases List.mem_cons.mp h with rfl | hrest
      · exact (replay_later lib c.markOomAbort rest).flag rfl
      · exact ih (applyOp lib c op) hrest

/-! ## Decisions after the stop -/

/-- What lets a decision end the loop although the budget flag is not consulted:
a resolved or fatal wave, an instability signal, probe routing, a blocked
oracle, or one of the two triggers of a wave without survivors. -/
def EndsLoop (lib : ControllerLib) (c : MapeKController) (outcome : PipelineOutcome)
    (retryCount : Nat) : Prop :=
  (c.checkInstability lib retryCount).1 ≠ none ∨
    match outcome with
    | .resolved _ => True
    | .fatal _ => True
    | .earlyExit reason =>
        c.probeRouting retryCount ≠ none ∨
          match reason with
          | .oracleBlocked => True
          | .zeroSurvival _ nEffCosine _ _ _ =>
              c.integrationTrigger retryCount ≠ none ∨
                c.ceilingTrigger lib nEffCosine retryCount ≠ none
          | _ => False

/-- Nothing was ever tried, so the policy always has a topology left. -/
theorem policyAction_ne_fail (lib : ControllerLib) (c : MapeKController) (retryCount : Nat)
    (untried : c.triedTopologies = []) : c.policyAction lib retryCount ≠ .fail := by
  unfold MapeKController.policyAction
  rw [untried]
  intro hfail
  have hall := (retryPolicyDecide_fail_iff lib.externals lib.walkEntries retryCount []
    c.allPruned).mp hfail
  have := hall .ensemble (by simp [Source.MapeK.frontier])
  simp [hasTried] at this

theorem retryByPolicy_retry (lib : ControllerLib) (c : MapeKController) (retryCount : Nat)
    (filterRatio : ℚ) (untried : c.triedTopologies = []) :
    (c.retryByPolicy lib retryCount filterRatio).1 = .retry := by
  unfold MapeKController.retryByPolicy
  have hne := policyAction_ne_fail lib c retryCount untried
  cases haction : c.policyAction lib retryCount with
  | fail => exact absurd haction hne
  | _ => rfl

/-- With the flag set, or the fraction reached, a resolved wave is returned. -/
theorem decideResolved_stopped {c : MapeKController} (stopped : Stopped c)
    (merge : MergeOutput) (retryCount : Nat) :
    (c.decideResolved merge retryCount).1 ≠ .retry := by
  have hflag : (c.noteBudget.noteConvergence merge retryCount).budgetExhausted = true := by
    rw [(noteConvergence_keeps c.noteBudget merge retryCount).flag]
    unfold MapeKController.noteBudget
    rcases stopped with hflag | hreached
    · split
      · rfl
      · exact hflag
    · simp only [hreached, ↓reduceIte]
  unfold MapeKController.decideResolved
  simp [MapeKController.tieredExitRetries, hflag]

/-- A wave without survivors is retried unless one of its triggers fires. -/
theorem handleZeroSurvival_ne_retry_iff (lib : ControllerLib) (c : MapeKController)
    (untried : c.triedTopologies = []) (mode : Option Source.MapeK.FailureMode)
    (nEffCosine : Option ℚ) (tauValues : List ℚ) (retryCount : Nat) (filterRatio : ℚ) :
    (c.handleZeroSurvival lib mode nEffCosine tauValues retryCount filterRatio).1 ≠ .retry ↔
      c.integrationTrigger retryCount ≠ none ∨
        c.ceilingTrigger lib nEffCosine retryCount ≠ none := by
  have hprepared := enterZeroSurvival_prepared lib c mode tauValues
  unfold MapeKController.handleZeroSurvival
  simp only [hprepared.integrationTrigger, hprepared.ceilingTrigger]
  cases hint : c.integrationTrigger retryCount with
  | some decision =>
      have hne := (integrationTrigger_overflow hint).ne_retry
      simp [hne]
  | none =>
      cases hceil : c.ceilingTrigger lib nEffCosine retryCount with
      | some decision =>
          have hne := (ceilingTrigger_overflow hceil).ne_retry
          simp [hne]
      | none =>
          have huntried : ((c.enterZeroSurvival lib mode tauValues).countZeroSurvival
              nEffCosine).triedTopologies = [] :=
            (enterZeroSurvival_keeps lib c mode tauValues).tried.trans untried
          simp [retryByPolicy_retry lib _ retryCount filterRatio huntried]

theorem handleExitReason_ne_retry_iff (lib : ControllerLib) (c : MapeKController)
    (untried : c.triedTopologies = []) (reason : ExitReason) (retryCount : Nat)
    (filterRatio : ℚ) :
    (c.handleExitReason lib reason retryCount filterRatio).1 ≠ .retry ↔
      c.probeRouting retryCount ≠ none ∨
        match reason with
        | .oracleBlocked => True
        | .zeroSurvival _ nEffCosine _ _ _ =>
            c.integrationTrigger retryCount ≠ none ∨
              c.ceilingTrigger lib nEffCosine retryCount ≠ none
        | _ => False := by
  unfold MapeKController.handleExitReason
  cases hprobe : c.probeRouting retryCount with
  | some decision =>
      have hne := (probeRouting_overflow hprobe).ne_retry
      simp [hne]
  | none =>
      cases reason with
      | multiplicationFailed tauValues failure =>
          simp [retryByPolicy_retry lib (c.noteMultiplicationFailure failure tauValues)
            retryCount 1 untried]
      | diversityFailed nEff tauValues =>
          simp [retryByPolicy_retry lib (c.noteMultiplicationFailure
            (.insufficientPoolDiversity nEff c.cfg.diversityThreshold) tauValues)
            retryCount 1 untried]
      | zeroSurvival mode nEffCosine ratio tauValues events =>
          simpa using handleZeroSurvival_ne_retry_iff lib c untried mode nEffCosine tauValues
            retryCount filterRatio
      | hallucinationDetected hint tauValues warning => simp
      | oraclePostSelectionBlocked summary => simp
      | oracleBlocked => simp

/-- One decision after the stop. -/
theorem decide_ne_retry_iff (lib : ControllerLib) (c : MapeKController)
    (untried : c.triedTopologies = []) (stopped : Stopped c) (range : c.tokensUsed < 2 ^ 64)
    (outcome : PipelineOutcome) (retryCount : Nat) (filterRatio : ℚ) :
    (c.decide lib outcome retryCount filterRatio).1 ≠ .retry ↔
      EndsLoop lib c outcome retryCount := by
  obtain ⟨c', hsettled, heq⟩ := decide_eq lib c outcome retryCount filterRatio
  rw [heq]
  unfold EndsLoop
  cases (c.checkInstability lib retryCount).1 with
  | some signal => simp
  | none =>
      cases outcome with
      | resolved merge =>
          have hstop := stopped_later hsettled.keeps.later range stopped
          simpa using decideResolved_stopped hstop merge retryCount
      | fatal e => simp
      | earlyExit reason =>
          have huntried := hsettled.keeps.tried.trans untried
          have hiff := handleExitReason_ne_retry_iff lib c' huntried reason retryCount filterRatio
          simp only [hsettled.probeRouting, hsettled.integrationTrigger,
            hsettled.ceilingTrigger] at hiff
          simp only [ne_eq, not_true_eq_false, false_or]
          exact hiff

/-! ## Whole runs -/

/-- `P` holds of every decision of the run that comes after the stop. -/
def AfterStop (lib : ControllerLib) (c : MapeKController) (ops : List ControllerOp)
    (P : MapeKController → PipelineOutcome → Nat → ℚ → Prop) : Prop :=
  ∀ before later outcome retryCount filterRatio rest,
    ops = before ++ later ++ .decide outcome retryCount filterRatio :: rest →
    (.markOomAbort ∈ before ∨ (replay lib c before).budgetReached = true) →
      P (replay lib c (before ++ later)) outcome retryCount filterRatio

/-- The state in which a decision after the stop is taken. -/
theorem stopped_at_decision (lib : ControllerLib) (c : MapeKController)
    (range : c.tokensUsed < 2 ^ 64) (before later : List ControllerOp)
    (stop : .markOomAbort ∈ before ∨ (replay lib c before).budgetReached = true) :
    Stopped (replay lib c (before ++ later)) := by
  have hsplit : replay lib c (before ++ later) = replay lib (replay lib c before) later :=
    List.foldl_append
  have hrange := ((replay_later lib c before).tokens range).2
  have hstop : Stopped (replay lib c before) := by
    rcases stop with habort | hreached
    · exact Or.inl (stopped_of_oomAbort lib c habort)
    · exact Or.inr hreached
  rw [hsplit]
  exact stopped_later (replay_later lib _ later) hrange hstop

/-- **Budget stop.** In every run of a fresh controller, no decision after the
stop is `Retry` exactly when each of them ends the loop for a reason of its own. -/
theorem budget_stop_iff (lib : ControllerLib) (cfg : H2AIConfig) (init : ControllerInit)
    (corpus : List ConstraintDoc) (ops : List ControllerOp) :
    AfterStop lib (.new cfg init corpus) ops
        (fun c outcome retryCount filterRatio =>
          (c.decide lib outcome retryCount filterRatio).1 ≠ .retry) ↔
      AfterStop lib (.new cfg init corpus) ops
        (fun c outcome retryCount _ => EndsLoop lib c outcome retryCount) := by
  have hrange : (MapeKController.new cfg init corpus).tokensUsed < 2 ^ 64 := by
    simp [MapeKController.new]
  have hstep : ∀ before later outcome retryCount filterRatio,
      (.markOomAbort ∈ before ∨
        (replay lib (.new cfg init corpus) before).budgetReached = true) →
      (((replay lib (.new cfg init corpus) (before ++ later)).decide lib outcome retryCount
          filterRatio).1 ≠ .retry ↔
        EndsLoop lib (replay lib (.new cfg init corpus) (before ++ later)) outcome
          retryCount) := by
    intro before later outcome retryCount filterRatio stop
    have hlater := replay_later lib (.new cfg init corpus) (before ++ later)
    exact decide_ne_retry_iff lib _ hlater.tried
      (stopped_at_decision lib _ hrange before later stop) (hlater.tokens hrange).2
      outcome retryCount filterRatio
  constructor
  · intro h before later outcome retryCount filterRatio rest hops stop
    exact (hstep before later outcome retryCount filterRatio stop).mp
      (h before later outcome retryCount filterRatio rest hops stop)
  · intro h before later outcome retryCount filterRatio rest hops stop
    exact (hstep before later outcome retryCount filterRatio stop).mpr
      (h before later outcome retryCount filterRatio rest hops stop)

/-- A memory abort followed by a hallucination exit: the wave is retried. -/
theorem oom_abort_then_retry :
    ¬ AfterStop asciiLib (.new .reference plainInit [])
      [.markOomAbort, .decide (.earlyExit (.hallucinationDetected "hint" [] ⟨0, 0, 0⟩)) 0 1]
      (fun c outcome retryCount filterRatio =>
        (c.decide asciiLib outcome retryCount filterRatio).1 ≠ .retry) := by
  intro h
  exact h [.markOomAbort] [] _ _ _ [] rfl (Or.inl (List.mem_singleton.mpr rfl)) rfl

end ControlPlane.Guarantees.BudgetStop

/-!
# The topology frontier over whole runs

`RetryPolicy::decide` walks the frontier by the topologies it is told were tried;
the list is a field of the controller. The law is about the two together: over a
run no variant is forced twice, and behind the third one the policy gives up.
The controller never adds to the list, so the law holds exactly for the runs that
ask the policy at most once.
-/
namespace ControlPlane.Guarantees.TopologyFrontier

open Source Source.MapeK Source.Config Source.Constraints

/-! ## Exits that ask the policy -/

/-- The wave's outcome makes `decide` ask the policy. -/
def decideAsks (lib : ControllerLib) (c : MapeKController) (retryCount : Nat) :
    PipelineOutcome → Bool
  | .earlyExit reason =>
      (c.checkInstability lib retryCount).1.isNone && asksPolicy lib c retryCount reason
  | _ => false

/-- What an exit that asked the policy led to. -/
structure PolicyExit where
  decision : MapeKDecision
  forceTopology : Option TopologyKind
  deriving DecidableEq

/-- The topology a retry forces. -/
def PolicyExit.forced (e : PolicyExit) : Option TopologyKind :=
  if e.decision = .retry then e.forceTopology else none

def policyExit (lib : ControllerLib) (c : MapeKController) : ControllerOp → Option PolicyExit
  | .decide outcome retryCount filterRatio =>
      if decideAsks lib c retryCount outcome then
        some ⟨(c.decide lib outcome retryCount filterRatio).1,
          (c.decide lib outcome retryCount filterRatio).2.forceTopology⟩
      else none
  | _ => none

/-- The exits of a run that asked the policy, in order. -/
def policyExits (lib : ControllerLib) : MapeKController → List ControllerOp → List PolicyExit
  | _, [] => []
  | c, op :: rest => (policyExit lib c op).toList ++ policyExits lib (applyOp lib c op) rest

/-- How often a run asks the policy. -/
def timesAsked (lib : ControllerLib) : MapeKController → List ControllerOp → Nat
  | _, [] => 0
  | c, op :: rest =>
      (match op with
        | .decide outcome retryCount _ => if decideAsks lib c retryCount outcome then 1 else 0
        | _ => 0) + timesAsked lib (applyOp lib c op) rest

/-- No variant is forced twice, and behind all three there is no retry. -/
structure WalksFrontier (exits : List PolicyExit) : Prop where
  once : (exits.filterMap PolicyExit.forced).Pairwise fun a b => sameVariant a b = false
  exhausted : ∀ before exit after, exits = before ++ exit :: after →
    (∀ t ∈ frontier, hasTried (before.filterMap PolicyExit.forced) t = true) →
    exit.decision ≠ .retry

/-! ## One exit -/

/-- With nothing tried, the policy forces the first topology of the frontier. -/
theorem retryPolicyDecide_untried (x : Externals)
    (walk : List (String × ConstraintEntry) → List (String × ConstraintEntry))
    (retryCount : Nat) (pruned : List BranchPrunedEvent) :
    (∃ targets, retryPolicyDecide x walk retryCount [] pruned =
        .retryWithTargets .ensemble targets) ∨
      (∃ factor, retryPolicyDecide x walk retryCount [] pruned =
        .retryWithTauReduction .ensemble factor) ∨
      retryPolicyDecide x walk retryCount [] pruned = .retry .ensemble := by
  have hfirst : frontier.find? (fun candidate => !hasTried [] candidate) = some .ensemble := rfl
  unfold retryPolicyDecide
  rw [hfirst]
  dsimp only
  split
  · exact Or.inl ⟨_, rfl⟩
  · split
    · exact Or.inr (Or.inl ⟨_, rfl⟩)
    · exact Or.inr (Or.inr rfl)

theorem retryByPolicy_untried (lib : ControllerLib) {c : MapeKController}
    (untried : c.triedTopologies = []) (retryCount : Nat) (filterRatio : ℚ) :
    (c.retryByPolicy lib retryCount filterRatio).1 = .retry ∧
      (c.retryByPolicy lib retryCount filterRatio).2.forceTopology = some .ensemble := by
  unfold MapeKController.retryByPolicy MapeKController.policyAction
  rw [untried]
  rcases retryPolicyDecide_untried lib.externals lib.walkEntries retryCount c.allPruned with
    ⟨targets, h⟩ | ⟨factor, h⟩ | h
  · rw [h]
    exact ⟨rfl, rfl⟩
  · rw [h]
    exact ⟨rfl, rfl⟩
  · rw [h]
    exact ⟨rfl, rfl⟩

/-- An exit that asks the policy with nothing tried is a retry with the first topology. -/
theorem decide_untried {lib : ControllerLib} {c : MapeKController} {outcome : PipelineOutcome}
    {retryCount : Nat} (untried : c.triedTopologies = [])
    (asks : decideAsks lib c retryCount outcome = true) (filterRatio : ℚ) :
    (c.decide lib outcome retryCount filterRatio).1 = .retry ∧
      (c.decide lib outcome retryCount filterRatio).2.forceTopology = some .ensemble := by
  cases outcome with
  | resolved merge => cases asks
  | fatal e => cases asks
  | earlyExit reason =>
      simp only [decideAsks, Bool.and_eq_true, Option.isNone_iff_eq_none] at asks
      obtain ⟨c', hsettled, hroute⟩ := decide_earlyExit asks.1 reason filterRatio
      have hasks := hsettled.asksPolicy lib retryCount reason
      rw [asks.2] at hasks
      generalize c.decide lib (.earlyExit reason) retryCount filterRatio = answer at hroute
      cases hroute with
      | probe routed => simp [asksPolicy, routed] at hasks
      | integration unrouted fires prepared => simp [asksPolicy, fires] at hasks
      | ceiling unrouted quiet fires prepared => simp [asksPolicy, fires] at hasks
      | @policy _ c'' asks prepared ratio =>
          have htried : c''.triedTopologies = [] := by
            have htask := prepared.taskPart.trans hsettled.taskPart
            rw [← untried]
            exact congrArg TaskPart.triedTopologies htask
          exact retryByPolicy_untried lib htried retryCount ratio
      | hallucination unrouted => simp [asksPolicy] at hasks
      | evicted unrouted => simp [asksPolicy] at hasks
      | blocked unrouted => simp [asksPolicy] at hasks

/-! ## Runs -/

/-- The exit every consultation leads to while nothing counts as tried. -/
def firstTopology : PolicyExit := ⟨.retry, some .ensemble⟩

theorem policyExit_untried {lib : ControllerLib} {c : MapeKController} {op : ControllerOp}
    {e : PolicyExit} (untried : c.triedTopologies = []) (h : policyExit lib c op = some e) :
    e = firstTopology := by
  cases op with
  | decide outcome retryCount filterRatio =>
      simp only [policyExit] at h
      split at h
      · rename_i asks
        obtain ⟨hdecision, hforced⟩ := decide_untried untried asks filterRatio
        rw [← Option.some.inj h, hdecision, hforced]
        rfl
      · cases h
  | _ => cases h

/-- No call on the controller adds to the tried topologies, so a run that starts
without any gets the same answer each time it asks. -/
theorem policyExits_eq_replicate (lib : ControllerLib) (ops : List ControllerOp)
    {c : MapeKController} (untried : c.triedTopologies = []) :
    policyExits lib c ops = List.replicate (timesAsked lib c ops) firstTopology := by
  induction ops generalizing c with
  | nil => rfl
  | cons op rest ih =>
      have hnext : (applyOp lib c op).triedTopologies = [] := by
        rw [← untried]
        exact congrArg TaskPart.triedTopologies (applyOp_taskPart lib c op)
      have hexit : (policyExit lib c op).toList =
          List.replicate (policyExit lib c op).toList.length firstTopology := by
        cases hanswer : policyExit lib c op with
        | none => rfl
        | some e =>
            rw [policyExit_untried untried hanswer]
            rfl
      have hcount : timesAsked lib c (op :: rest) =
          (policyExit lib c op).toList.length + timesAsked lib (applyOp lib c op) rest := by
        cases op with
        | decide outcome retryCount filterRatio =>
            simp only [timesAsked, policyExit]
            split <;> rfl
        | _ => rfl
      rw [policyExits, ih hnext, hcount, List.replicate_add, ← hexit]

theorem replicate_walksFrontier (n : Nat) :
    WalksFrontier (List.replicate n firstTopology) ↔ n ≤ 1 := by
  constructor
  · intro walks
    by_contra htwice
    obtain ⟨m, rfl⟩ : ∃ m, n = m + 2 := ⟨n - 2, by omega⟩
    have honce := walks.once
    rw [show List.replicate (m + 2) firstTopology =
      firstTopology :: firstTopology :: List.replicate m firstTopology from rfl] at honce
    simp [firstTopology, PolicyExit.forced, sameVariant] at honce
  · intro hle
    refine ⟨?_, ?_⟩
    · rcases Nat.le_one_iff_eq_zero_or_eq_one.mp hle with rfl | rfl
      · exact List.Pairwise.nil
      · exact List.pairwise_singleton _ _
    · intro before exit after heq htried
      -- only the first exit can be meant, and nothing is forced before it
      have hlength := congrArg List.length heq
      simp only [List.length_replicate, List.length_append, List.length_cons] at hlength
      have hbefore : before = [] := List.eq_nil_of_length_eq_zero (by omega)
      rw [hbefore] at htried
      exact absurd (htried .ensemble (by decide)) (by decide)

/-- **Retry walks the topology frontier** exactly in the runs that ask the policy
at most once: whatever calls are made on a controller from `new()`, the second
exit that asks the policy forces the topology of the first one again. -/
theorem retry_walks_frontier_iff (lib : ControllerLib) (cfg : H2AIConfig) (init : ControllerInit)
    (corpus : List ConstraintDoc) (ops : List ControllerOp) :
    WalksFrontier (policyExits lib (MapeKController.new cfg init corpus) ops) ↔
      timesAsked lib (MapeKController.new cfg init corpus) ops ≤ 1 := by
  rw [policyExits_eq_replicate lib ops rfl]
  exact replicate_walksFrontier _

/-- Two waves without survivors, one after the other. -/
def twoZeroSurvivals : List ControllerOp :=
  [.decide (.earlyExit (.zeroSurvival none none 0 [] [])) 0 1,
    .decide (.earlyExit (.zeroSurvival none none 0 [] [])) 1 1]

/-- Both waves are retried with the ensemble topology. -/
theorem ensemble_forced_twice :
    ¬ WalksFrontier
      (policyExits asciiLib (MapeKController.new .reference plainInit []) twoZeroSurvivals) := by
  have hexits := policyExits_eq_replicate asciiLib twoZeroSurvivals
    (c := MapeKController.new .reference plainInit []) rfl
  have hasked : timesAsked asciiLib (MapeKController.new .reference plainInit [])
      twoZeroSurvivals = 2 := by decide +kernel
  rw [hexits, hasked, replicate_walksFrontier]
  decide

end ControlPlane.Guarantees.TopologyFrontier
