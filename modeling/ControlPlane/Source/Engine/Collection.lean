import ControlPlane.Lib.TimedJoin
import ControlPlane.Source.Engine.Proposals

/-!
# Collecting the results of a generation wave

Embeds `GenerationPhaseResult` and `generation_outcome` of `phases/generation.rs` and
the end of its `run`: all explorer futures under one `tokio::time::timeout`, and the
loop over what comes out of it. The order in which the calls come back, and the
timeout among them, is a list of events. `turn1_map` is left out.
-/
namespace ControlPlane.Source.Engine

open Lib Verification MapeK

/-- `GenerationPhaseResult`. -/
inductive GenerationPhaseResult where
  | full (proposals : List ProposalEvent)
  | someTimedOut (proposals : List ProposalEvent)
  | allTimedOut
  deriving DecidableEq, Repr

/-- `generation_outcome`; `run` does not call it. -/
def generationOutcome (completed : List ProposalEvent) (timedOutCount : Nat) :
    GenerationPhaseResult :=
  match completed.isEmpty, timedOutCount with
  | true, _ => .allTimedOut
  | false, 0 => .full completed
  | false, _ => .someTimedOut completed

structure ProposalFailedEvent where
  taskId : String
  explorerId : String
  /-- `AdapterError` with the text of this error. -/
  reason : EngineError
  deriving DecidableEq, Repr

/-- An explorer with what its future yields. -/
abbrev ExplorerResult := Explorer × Except EngineError TaoProposal

def failedEventOf (input : EngineInput) (result : ExplorerResult) : Option ProposalFailedEvent :=
  match result.2 with
  | .ok _ => none
  | .error e => some ⟨input.taskId, result.1.explorerId, e⟩

/-- The vectors that the loop fills. -/
structure Collected where
  proposals : List ProposalEvent
  taoTurns : List Nat
  failedProposals : List ProposalFailedEvent
  /-- Calls of `increment_completed`. -/
  completed : Nat

/-- One turn of the loop over the results. -/
def Collected.add (input : EngineInput) (retryCount : Nat) (c : Collected)
    (result : ExplorerResult) : Collected :=
  match result.2 with
  | .ok p =>
      { c with
        proposals := c.proposals ++ [⟨input.taskId, result.1.explorerId, result.1.tau, retryCount,
          p.rawOutput, p.tokenCost⟩]
        taoTurns := c.taoTurns ++ [p.taoTurns]
        completed := c.completed + 1 }
  | .error e =>
      { c with
        failedProposals := c.failedProposals ++ [⟨input.taskId, result.1.explorerId, e⟩]
        completed := c.completed + 1 }

/-- `Output` of the phase. -/
structure GenerationPhaseOutput where
  proposals : List ProposalEvent
  failedProposals : List ProposalFailedEvent
  allRawTexts : List String
  taoTurnsMean : ℚ
  tauValues : List ℚ
  failedCount : Nat
  deriving DecidableEq

/-- The futures of the wave and what each of them yields. -/
def futureResults (settings : ProposalSettings) (explorers : List Explorer) :
    List ExplorerResult :=
  explorers.map fun e => (e, (e.run settings).1)

/-- `results`; nothing yet while the wave waits. -/
def collectedResults {α : Type} : Join α → Option (List α)
  | .waiting _ => none
  | .joined results => some results
  | .timedOut => some []

def phaseOutput (input : EngineInput) (retryCount : Nat) (explorers : List Explorer)
    (results : List ExplorerResult) : GenerationPhaseOutput :=
  let c := results.foldl (Collected.add input retryCount) ⟨[], [], [], 0⟩
  { proposals := c.proposals
    failedProposals := c.failedProposals
    allRawTexts := c.proposals.map (·.rawOutput)
    taoTurnsMean :=
      if c.taoTurns.isEmpty then 1 else (c.taoTurns.map (Nat.cast : Nat → ℚ)).sum / c.taoTurns.length
    tauValues := explorers.map (·.tau)
    failedCount := c.failedProposals.length }

/-- The end of `generation::run`, from the start of the futures on. -/
def collectGeneration (input : EngineInput) (settings : ProposalSettings) (retryCount : Nat)
    (explorers : List Explorer) (events : List JoinEvent) : Option GenerationPhaseOutput :=
  (collectedResults (Join.run (futureResults settings explorers) events)).map
    (phaseOutput input retryCount explorers)

/-! ## The loop -/

theorem foldl_add (input : EngineInput) (retryCount : Nat) (results : List ExplorerResult)
    (c : Collected) :
    (results.foldl (Collected.add input retryCount) c).proposals =
        c.proposals ++ results.filterMap (proposalEvent input retryCount) ∧
      (results.foldl (Collected.add input retryCount) c).failedProposals =
        c.failedProposals ++ results.filterMap (failedEventOf input) ∧
      (results.foldl (Collected.add input retryCount) c).completed =
        c.completed + results.length := by
  induction results generalizing c with
  | nil => simp
  | cons result results ih =>
      obtain ⟨hproposals, hfailed, hcompleted⟩ := ih (c.add input retryCount result)
      rw [List.foldl_cons, hproposals, hfailed, hcompleted]
      obtain ⟨e, outcome⟩ := result
      cases outcome with
      | ok p =>
          simp [Collected.add, proposalEvent, failedEventOf, List.filterMap_cons, Nat.add_comm,
            Nat.add_left_comm]
      | error e =>
          simp [Collected.add, proposalEvent, failedEventOf, List.filterMap_cons, Nat.add_comm,
            Nat.add_left_comm]

theorem phaseOutput_proposals (input : EngineInput) (retryCount : Nat) (explorers : List Explorer)
    (results : List ExplorerResult) : (phaseOutput input retryCount explorers results).proposals =
      results.filterMap (proposalEvent input retryCount) :=
  (foldl_add input retryCount results ⟨[], [], [], 0⟩).1

theorem phaseOutput_failedProposals (input : EngineInput) (retryCount : Nat)
    (explorers : List Explorer) (results : List ExplorerResult) :
    (phaseOutput input retryCount explorers results).failedProposals =
      results.filterMap (failedEventOf input) :=
  (foldl_add input retryCount results ⟨[], [], [], 0⟩).2.1

/-- Every result leaves a proposal or a failure record. -/
theorem results_eq_nil {input : EngineInput} {retryCount : Nat} {results : List ExplorerResult}
    (hproposals : results.filterMap (proposalEvent input retryCount) = [])
    (hfailed : results.filterMap (failedEventOf input) = []) : results = [] := by
  refine List.eq_nil_iff_forall_not_mem.mpr fun result hresult => ?_
  have hproposal := List.filterMap_eq_nil_iff.mp hproposals result hresult
  have hfailure := List.filterMap_eq_nil_iff.mp hfailed result hresult
  unfold proposalEvent at hproposal
  unfold failedEventOf at hfailure
  cases houtcome : result.2 with
  | ok p => simp [houtcome] at hproposal
  | error e => simp [houtcome] at hfailure

/-! ## The results of a wave -/

/-- A wave that is over has all of its results or none. -/
theorem collectGeneration_eq {input : EngineInput} {settings : ProposalSettings}
    {retryCount : Nat} {explorers : List Explorer} {events : List JoinEvent}
    {out : GenerationPhaseOutput}
    (h : collectGeneration input settings retryCount explorers events = some out) :
    out = phaseOutput input retryCount explorers
      (if AllInTime (futureResults settings explorers) events then
        futureResults settings explorers else []) := by
  unfold collectGeneration at h
  rw [Join.run_eq] at h
  split_ifs at h ⊢ with hall helapsed
  · exact (Option.some.inj h).symm
  · exact (Option.some.inj h).symm
  · cases h

/-- The wave's record of its answers, as the verification reads it. -/
theorem collectGeneration_generationRun {input : EngineInput} {settings : ProposalSettings}
    {retryCount : Nat} {explorers : List Explorer} {events : List JoinEvent}
    {out : GenerationPhaseOutput}
    (h : collectGeneration input settings retryCount explorers events = some out)
    (back : Nat → Nat) :
    (⟨out.proposals, out.tauValues⟩ : GenerationOutput) =
      generationRun input settings retryCount ⟨explorers,
        if AllInTime (futureResults settings explorers) events then none else some back⟩ := by
  rw [collectGeneration_eq h, phaseOutput_proposals]
  unfold generationRun explorerResults
  by_cases hall : AllInTime (futureResults settings explorers) events
  · simp only [if_pos hall]
    rfl
  · simp only [if_neg hall]
    rfl

end ControlPlane.Source.Engine
