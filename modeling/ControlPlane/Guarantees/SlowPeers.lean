import ControlPlane.Source.Engine.Collection

/-!
# Finished proposals and slow peers

The futures of a wave are joined before the timeout is looked at, so what comes out
is all of the results or none: the results that are there when the timeout fires are
dropped with the missing ones.
-/
namespace ControlPlane.Guarantees.SlowPeers

open Lib Source.Verification Source.Engine Source.MapeK

/-- The results of the explorers that finish before the timeout, in slot order. -/
def finishedResults (settings : ProposalSettings) (explorers : List Explorer)
    (events : List JoinEvent) : List ExplorerResult :=
  outputsOf (futureResults settings explorers) (inTime events)

/-- Each explorer that finishes in time contributes its proposal or its failure record,
and only the others are missing. -/
structure PeersSurvive (input : EngineInput) (settings : ProposalSettings) (retryCount : Nat)
    (explorers : List Explorer) (events : List JoinEvent) (out : GenerationPhaseOutput) :
    Prop where
  proposals : out.proposals =
    (finishedResults settings explorers events).filterMap (proposalEvent input retryCount)
  failures : out.failedProposals =
    (finishedResults settings explorers events).filterMap (failedEventOf input)
  outcome : ∀ missing, generationOutcome out.proposals missing =
    generationOutcome ((finishedResults settings explorers events).filterMap
      (proposalEvent input retryCount)) missing

/-- All explorers of the wave finish before the timeout, or none does. -/
def AllOrNone (explorers : List Explorer) (events : List JoinEvent) : Prop :=
  (∀ i < explorers.length, i ∈ inTime events) ∨ ∀ i < explorers.length, i ∉ inTime events

theorem futureResults_length (settings : ProposalSettings) (explorers : List Explorer) :
    (futureResults settings explorers).length = explorers.length :=
  List.length_map _

variable {input : EngineInput} {settings : ProposalSettings} {retryCount : Nat}
  {explorers : List Explorer} {events : List JoinEvent} {out : GenerationPhaseOutput}

theorem survive_iff_results {results : List ExplorerResult}
    (h : out = phaseOutput input retryCount explorers results) :
    PeersSurvive input settings retryCount explorers events out ↔
      results.filterMap (proposalEvent input retryCount) =
          (finishedResults settings explorers events).filterMap (proposalEvent input retryCount) ∧
        results.filterMap (failedEventOf input) =
          (finishedResults settings explorers events).filterMap (failedEventOf input) := by
  subst h
  constructor
  · intro survive
    have hproposals := survive.proposals
    have hfailures := survive.failures
    rw [phaseOutput_proposals] at hproposals
    rw [phaseOutput_failedProposals] at hfailures
    exact ⟨hproposals, hfailures⟩
  · rintro ⟨hproposals, hfailures⟩
    refine ⟨?_, ?_, fun missing => ?_⟩
    · rw [phaseOutput_proposals, hproposals]
    · rw [phaseOutput_failedProposals, hfailures]
    · rw [phaseOutput_proposals, hproposals]

/-- Finished proposals survive the slow peers exactly if the wave has no slow peers, or
nothing but slow peers. -/
theorem peersSurvive_iff
    (ended : collectGeneration input settings retryCount explorers events = some out) :
    PeersSurvive input settings retryCount explorers events out ↔ AllOrNone explorers events := by
  rw [survive_iff_results (collectGeneration_eq ended)]
  have hlength := futureResults_length settings explorers
  by_cases hall : AllInTime (futureResults settings explorers) events
  · have hfinished : finishedResults settings explorers events = futureResults settings explorers :=
      outputsOf_all hall
    rw [if_pos hall, hfinished]
    exact iff_of_true ⟨rfl, rfl⟩ (Or.inl (by rwa [← hlength]))
  · rw [if_neg hall]
    constructor
    · rintro ⟨hproposals, hfailures⟩
      have hnil := results_eq_nil hproposals.symm hfailures.symm
      have hnone := outputsOf_eq_nil.mp hnil
      rw [hlength] at hnone
      exact Or.inr hnone
    · rintro (hall' | hnone)
      · rw [← hlength] at hall'
        exact absurd hall' hall
      · have hnil : finishedResults settings explorers events = [] :=
          outputsOf_eq_nil.mpr (by rwa [hlength])
        rw [hnil]
        exact ⟨rfl, rfl⟩

/-- Both explorers of a wave finish, the second one first. -/
theorem peersSurvive_pair :
    PeersSurvive plainInput plainSettings 0 [plainExplorer 3, plainExplorer 4]
      [.finished 1, .finished 0]
      (phaseOutput plainInput 0 [plainExplorer 3, plainExplorer 4]
        (futureResults plainSettings [plainExplorer 3, plainExplorer 4])) :=
  (peersSurvive_iff (by decide +kernel)).mpr (Or.inl (by decide +kernel))

/-- One slow explorer takes the finished proposal of the other one with it. -/
theorem slowPeer_discards :
    ∃ out, collectGeneration plainInput plainSettings 0 [plainExplorer 3, plainExplorer 4]
        [.finished 0, .elapsed] = some out ∧
      ¬ PeersSurvive plainInput plainSettings 0 [plainExplorer 3, plainExplorer 4]
        [.finished 0, .elapsed] out := by
  refine ⟨phaseOutput plainInput 0 [plainExplorer 3, plainExplorer 4] [], by decide +kernel, ?_⟩
  intro survive
  have hproposals := survive.proposals
  revert hproposals
  decide +kernel

end ControlPlane.Guarantees.SlowPeers
