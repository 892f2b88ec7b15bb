import ControlPlane.Lib.Sequences
import ControlPlane.Source.Engine.Grafting

/-!
# The rounds of sequential grafting

The grafting loop for any check offsets, any answers and any outcome of the verification,
with what it does with each candidate it comes to. The loop of the synthesis wave is the
one with the offsets of the corpus and the scores of the verifier.
-/
namespace ControlPlane.Source.Engine

open MapeK

structure GraftTask where
  offsets : List (String × Nat × Nat)
  systemContext : String
  /-- `sequential_grafting_max_rounds`. -/
  maxRounds : Nat

/-- An answer of the adapter with the score of its intermediate verification. -/
structure VerifiedAnswer where
  output : String
  newScore : ℚ

inductive GraftOutcome where
  | skipped
  | rolledBack
  | accepted (ids : List String)
  deriving DecidableEq, Repr

/-- One candidate of the loop. -/
structure GraftStep where
  before : GraftState
  candidate : PartialPass
  outcome : GraftOutcome
  after : GraftState
  deriving DecidableEq, Repr

namespace GraftTask

variable (t : GraftTask)

def missing (s : GraftState) (candidate : PartialPass) : List String :=
  missingConstraintIds s.basePartial candidate t.offsets

def asks (s : GraftState) (candidate : PartialPass) : Bool :=
  !(t.missing s candidate).isEmpty && !graftIsRedundant s.basePartial candidate (3 / 5) &&
    !graftedIdsCycleDetected (t.missing s candidate) s.graftedIds &&
    !graftTokenProjectionExceeds s.baseText candidate.proposalText (13 / 10)

def prompt (s : GraftState) (candidate : PartialPass) : String :=
  buildGraftContext
    ⟨s.baseText, candidate.proposalText, t.missing s candidate, t.systemContext⟩

def accept (s : GraftState) (candidate : PartialPass) (a : VerifiedAnswer) : GraftState :=
  { baseText := a.output
    basePartial := { s.basePartial with
      checkResults := candidate.checkResults.foldl markPassed s.basePartial.checkResults }
    baseScore := a.newScore
    roundsUsed := s.roundsUsed + 1
    graftedIds := s.graftedIds ++ t.missing s candidate
    calls := s.calls + 1 }

/-- A verified answer is accepted, or rolled back. -/
def settle (s : GraftState) (candidate : PartialPass) (a : VerifiedAnswer) : GraftStep :=
  if s.baseScore ≤ a.newScore then
    ⟨s, candidate, .accepted (t.missing s candidate), t.accept s candidate a⟩
  else ⟨s, candidate, .rolledBack, { s with calls := s.calls + 1 }⟩

end GraftTask

/-- What the loop does with the candidates up to its end. -/
def graftSteps (t : GraftTask) (answers : Nat → String → Option VerifiedAnswer) :
    GraftState → List PartialPass → List GraftStep
  | _, [] => []
  | s, candidate :: rest =>
      if max t.maxRounds 1 - 1 ≤ s.roundsUsed then []
      else if !t.asks s candidate then
        ⟨s, candidate, .skipped, s⟩ :: graftSteps t answers s rest
      else
        match answers s.calls (t.prompt s candidate) with
        | none => []
        | some a =>
            let step := t.settle s candidate a
            step :: graftSteps t answers step.after rest

/-! ## The loop of the synthesis wave -/

namespace GraftSetup

def task (g : GraftSetup) : GraftTask := ⟨g.offsets, g.systemContext, g.maxRounds⟩

/-- The answers of the adapter, each verified. -/
def verified (g : GraftSetup) (adapter : GraftAdapter) : Nat → String → Option VerifiedAnswer :=
  fun call prompt => (adapter call prompt).map fun r => ⟨r.output, g.newScore r⟩

end GraftSetup

theorem settle_after (g : GraftSetup) (s : GraftState) (candidate : PartialPass)
    (r : GraftResponse) :
    (g.task.settle s candidate ⟨r.output, g.newScore r⟩).after = g.settle s candidate r := by
  unfold GraftTask.settle GraftSetup.settle
  dsimp only
  split_ifs <;> rfl

/-- The states of the wave's loop are those that its steps lead to. -/
theorem graftStates_eq_steps (g : GraftSetup) (adapter : GraftAdapter) (s : GraftState)
    (candidates : List PartialPass) :
    graftStates g adapter s candidates =
      s :: (graftSteps g.task (g.verified adapter) s candidates).map (·.after) := by
  induction candidates generalizing s with
  | nil => rfl
  | cons candidate rest ih =>
      have hasks : g.task.asks s candidate = g.asks s candidate := rfl
      have hprompt : g.task.prompt s candidate = g.prompt s candidate := rfl
      have hrounds : g.task.maxRounds = g.maxRounds := rfl
      rw [graftStates, graftSteps, hasks, hprompt, hrounds]
      unfold graftCandidate
      split_ifs
      · rfl
      · exact congrArg (s :: ·) (ih s)
      · unfold GraftSetup.verified
        cases adapter s.calls (g.prompt s candidate) with
        | none => rfl
        | some r =>
            simp only [Option.map_some, List.map_cons, settle_after]
            exact congrArg (s :: ·) (ih (g.settle s candidate r))

/-! ## What a step can do -/

/-- Every step of a run is one of these. -/
inductive GraftTask.Does (t : GraftTask) : GraftStep → Prop where
  | skip (s : GraftState) (candidate : PartialPass) : t.Does ⟨s, candidate, .skipped, s⟩
  | rollBack (s : GraftState) (candidate : PartialPass) :
      t.Does ⟨s, candidate, .rolledBack, { s with calls := s.calls + 1 }⟩
  | accept (s : GraftState) (candidate : PartialPass) (a : VerifiedAnswer)
      (left : s.roundsUsed < max t.maxRounds 1 - 1) :
      t.Does ⟨s, candidate, .accepted (t.missing s candidate), t.accept s candidate a⟩

section Runs

variable {t : GraftTask} {answers : Nat → String → Option VerifiedAnswer}

theorem settle_does {s : GraftState} {candidate : PartialPass} (a : VerifiedAnswer)
    (left : s.roundsUsed < max t.maxRounds 1 - 1) : t.Does (t.settle s candidate a) := by
  unfold GraftTask.settle
  split_ifs
  · exact .accept s candidate a left
  · exact .rollBack s candidate

theorem settle_before (s : GraftState) (candidate : PartialPass) (a : VerifiedAnswer) :
    (t.settle s candidate a).before = s ∧ (t.settle s candidate a).candidate = candidate := by
  unfold GraftTask.settle
  split_ifs <;> exact ⟨rfl, rfl⟩

/-- The steps of a run: each starts where the one before it has ended. -/
inductive GraftRun (t : GraftTask) : GraftState → List PartialPass → List GraftStep → Prop where
  | stop (s : GraftState) (candidates : List PartialPass) : GraftRun t s candidates []
  | step {s : GraftState} {candidate : PartialPass} {rest : List PartialPass} {step : GraftStep}
      {steps : List GraftStep} (starts : step.before = s) (takes : step.candidate = candidate)
      (does : t.Does step) (run : GraftRun t step.after rest steps) :
      GraftRun t s (candidate :: rest) (step :: steps)

theorem graftSteps_run (t : GraftTask) (answers : Nat → String → Option VerifiedAnswer)
    (s : GraftState) (candidates : List PartialPass) :
    GraftRun t s candidates (graftSteps t answers s candidates) := by
  induction candidates generalizing s with
  | nil => exact .stop s []
  | cons candidate rest ih =>
      rw [graftSteps]
      split_ifs with hover hasks
      · exact .stop s _
      · exact .step rfl rfl (.skip s candidate) (ih s)
      · cases answers s.calls (t.prompt s candidate) with
        | none => exact .stop s _
        | some a =>
            obtain ⟨hbefore, hcandidate⟩ := settle_before (t := t) s candidate a
            exact .step hbefore hcandidate (settle_does a (by omega)) (ih _)

/-- What every step preserves holds before and after each step of a run. -/
theorem GraftRun.invariant {P : GraftState → Prop} {s : GraftState}
    {candidates : List PartialPass} {steps : List GraftStep}
    (h : GraftRun t s candidates steps) (hstart : P s)
    (hstep : ∀ step, t.Does step → step.candidate ∈ candidates → P step.before → P step.after) :
    ∀ step ∈ steps, step.candidate ∈ candidates ∧ t.Does step ∧ P step.before ∧ P step.after := by
  induction h with
  | stop => simp
  | @step s candidate rest step steps starts takes does run ih =>
      have hcandidate : step.candidate ∈ candidate :: rest := by simp [takes]
      have hafter := hstep step does hcandidate (starts ▸ hstart)
      intro step' hmem
      rcases List.mem_cons.mp hmem with rfl | hmem
      · exact ⟨hcandidate, does, starts ▸ hstart, hafter⟩
      · obtain ⟨hin, hrest⟩ := ih hafter
          (fun step does hin hbefore => hstep step does (List.mem_cons_of_mem _ hin) hbefore)
          step' hmem
        exact ⟨List.mem_cons_of_mem _ hin, hrest⟩

end Runs

/-! ## What an accepted round does to the base -/

/-- The results of the checks, passed or not. -/
def resultsOf (checks : List String) (passed : Nat → Bool) : List (Nat × String × Bool) :=
  checks.mapIdx fun i text => (i, text, passed i)

section Marks

variable {checks : List String} {passed : Nat → Bool} {p : PartialPass}

theorem results_of_overChecks (h : OverChecks checks p) :
    ∃ passed, p.checkResults = resultsOf checks passed := by
  refine ⟨fun i => ((p.checkResults[i]?).map fun r => r.2.2).getD false, ?_⟩
  have hlength : p.checkResults.length = checks.length := by
    simpa using congrArg List.length h
  apply List.ext_getElem
  · simpa [resultsOf] using hlength
  · intro i hi _
    have hentry : (p.checkResults[i].1, p.checkResults[i].2.1) = (i, checks[i]) := by
      have hget := List.getElem_of_eq h (by simpa using hi : i < _)
      simpa using hget
    obtain ⟨hindex, htext⟩ := Prod.mk.inj hentry
    simp only [resultsOf, List.getElem_mapIdx, List.getElem?_eq_getElem hi, Option.map_some,
      Option.getD_some]
    exact Prod.ext hindex (Prod.ext htext rfl)

theorem overChecks_of_results (h : p.checkResults = resultsOf checks passed) :
    OverChecks checks p := by
  unfold OverChecks
  rw [h]
  apply List.ext_getElem
  · simp [resultsOf]
  · intro i _ _
    simp [resultsOf]

theorem passedCheckIndices_of_results (h : p.checkResults = resultsOf checks passed) :
    p.passedCheckIndices = (Finset.range checks.length).filter fun i => passed i = true := by
  unfold PartialPass.passedCheckIndices
  rw [h, resultsOf, passed_entries]
  ext i
  simp

/-- A passed check of the same list is marked, a failed one changes nothing. -/
theorem markPassed_resultsOf {i : Nat} {text : String} (b : Bool) (h : checks[i]? = some text) :
    markPassed (resultsOf checks passed) (i, text, b) =
      resultsOf checks fun j => passed j || (b && decide (j = i)) := by
  unfold markPassed
  cases b with
  | false => simp
  | true =>
      have hone : (resultsOf checks passed).Pairwise fun x y =>
          (if x.1 = i then some (i, text, true) else none) = none ∨
            (if y.1 = i then some (i, text, true) else none) = none := by
        have hindices : ((resultsOf checks passed).map Prod.fst).Pairwise (· ≠ ·) := by
          rw [show (resultsOf checks passed).map Prod.fst = List.range checks.length by
            apply List.ext_getElem
            · simp [resultsOf]
            · intro j _ _
              simp [resultsOf]]
          exact List.nodup_range
        refine (List.pairwise_map.mp hindices).imp fun {x y} hne => ?_
        by_cases hx : x.1 = i
        · exact Or.inr (if_neg fun hy => hne (hx.trans hy.symm))
        · exact Or.inl (if_neg hx)
      simp only [↓reduceIte, Bool.true_and]
      rw [Lib.replaceF_eq_map hone]
      apply List.ext_getElem
      · simp [resultsOf]
      · intro j hj _
        simp only [resultsOf, List.getElem_map, List.getElem_mapIdx]
        by_cases hji : j = i
        · subst hji
          obtain ⟨_, htext⟩ := List.getElem?_eq_some_iff.mp h
          simp [htext]
        · simp [hji]

theorem foldl_markPassed {results : List (Nat × String × Bool)}
    (h : ∀ r ∈ results, checks[r.1]? = some r.2.1) :
    results.foldl markPassed (resultsOf checks passed) =
      resultsOf checks fun j => passed j || results.any fun r => r.2.2 && decide (j = r.1) := by
  induction results generalizing passed with
  | nil => simp
  | cons r results ih =>
      obtain ⟨hr, hresults⟩ := List.forall_mem_cons.mp h
      rw [List.foldl_cons, markPassed_resultsOf r.2.2 hr, ih hresults]
      simp only [List.any_cons, Bool.or_assoc]

end Marks

/-- The base after an accepted round: over the same checks, passing what either of the two
passed. -/
theorem accept_base {t : GraftTask} {checks : List String} {s : GraftState}
    {candidate : PartialPass} (a : VerifiedAnswer) (hbase : OverChecks checks s.basePartial)
    (hcandidate : OverChecks checks candidate) :
    OverChecks checks (t.accept s candidate a).basePartial ∧
      (t.accept s candidate a).basePartial.passedCheckIndices =
        s.basePartial.passedCheckIndices ∪ candidate.passedCheckIndices := by
  obtain ⟨passed, hpassed⟩ := results_of_overChecks hbase
  obtain ⟨passed', hpassed'⟩ := results_of_overChecks hcandidate
  have htexts : ∀ r ∈ candidate.checkResults, checks[r.1]? = some r.2.1 := by
    intro r hr
    rw [hpassed'] at hr
    obtain ⟨i, hi, rfl⟩ := List.mem_mapIdx.mp hr
    exact List.getElem?_eq_getElem hi
  have hmarked : (t.accept s candidate a).basePartial.checkResults =
      resultsOf checks fun j => passed j ||
        candidate.checkResults.any fun r => r.2.2 && decide (j = r.1) := by
    show candidate.checkResults.foldl markPassed s.basePartial.checkResults = _
    rw [hpassed]
    exact foldl_markPassed htexts
  refine ⟨overChecks_of_results hmarked, ?_⟩
  rw [passedCheckIndices_of_results hmarked, passedCheckIndices_of_results hpassed]
  ext i
  have hin : i ∈ candidate.passedCheckIndices → i < checks.length := fun hi => by
    simpa using hcandidate.passed_subset hi
  have hany : (candidate.checkResults.any fun r => r.2.2 && decide (i = r.1)) = true ↔
      i ∈ candidate.passedCheckIndices := by
    unfold PartialPass.passedCheckIndices
    rw [List.any_eq_true, List.mem_toFinset, List.mem_map]
    constructor
    · intro h
      obtain ⟨r, hr, hmark⟩ := h
      obtain ⟨hp, hi⟩ := Bool.and_eq_true_iff.mp hmark
      exact ⟨r, List.mem_filter.mpr ⟨hr, hp⟩, (of_decide_eq_true hi).symm⟩
    · intro h
      obtain ⟨r, hr, rfl⟩ := h
      obtain ⟨hr, hp⟩ := List.mem_filter.mp hr
      exact ⟨r, hr, Bool.and_eq_true_iff.mpr ⟨hp, decide_eq_true rfl⟩⟩
  simp only [Finset.mem_filter, Finset.mem_range, Finset.mem_union, Bool.or_eq_true, hany]
  tauto

end ControlPlane.Source.Engine
