import ControlPlane.Lib.Sequences
import ControlPlane.Source.Engine.TaoLoop
import ControlPlane.Source.Text
import ControlPlane.Source.Verification.Predicate
import Mathlib.Data.List.Basic

/-!
# Chains and tournaments of adapter calls

Embeds `execute_chain`, `tournament_merge` and `split_pairs` of
`crates/h2ai-adapters/src/chain.rs` with the types of `crates/h2ai-types/src/chain.rs` and
`adapter.rs`. The adapter answers by the request. Next to each result stand the requests
that were sent; those of a tournament are listed by rounds.
-/
namespace ControlPlane.Source.Adapters

open Text
open Verification (ComputeRequest)
open Engine (ComputeResponse)

inductive AdapterError where
  | timeout
  | oomPanic (message : String)
  | networkError (message : String)
  | ffiError (message : String)
  | remote (message : String)
  | cancelled
  | unavailable
  | emptyOutput
  deriving DecidableEq, Repr

/-- An adapter whose answer is a function of the request. -/
abbrev Execute := ComputeRequest → Except AdapterError ComputeResponse

structure ChainStep where
  template : String
  tau : ℚ
  maxTokens : Nat
  deriving DecidableEq, Repr

structure ChainedRequest where
  initialSystemContext : String
  steps : List ChainStep
  deriving DecidableEq, Repr

/-- The requests of an asynchronous call and what it comes back with. -/
structure Sent (β : Type) where
  requests : List ComputeRequest
  result : Except AdapterError β

def executeSteps (execute : Execute) : List ChainStep → String → String → Sent String
  | [], _, output => ⟨[], .ok output⟩
  | step :: rest, ctx, _ =>
      let request : ComputeRequest := ⟨ctx, step.template, step.tau, step.maxTokens⟩
      match execute request with
      | .error e => ⟨[request], .error e⟩
      | .ok resp =>
          let later := executeSteps execute rest resp.output resp.output
          ⟨request :: later.requests, later.result⟩

def executeChain (execute : Execute) (req : ChainedRequest) : Sent String :=
  executeSteps execute req.steps req.initialSystemContext ""

/-- `join_all`, with the results collected: every call is made, and the first error in the
order of the calls is returned. -/
def joinAll {β : Type} (calls : List (Sent β)) : Sent (List β) where
  requests := calls.flatMap Sent.requests
  result := calls.mapM Sent.result

def splitPairs {α : Type} : List α → List (α × α) × Option α
  | a :: b :: rest => ((a, b) :: (splitPairs rest).1, (splitPairs rest).2)
  | [a] => ([], some a)
  | [] => ([], none)

/-- The arguments of `tournament_merge` next to the adapter and the proposals. -/
structure MergeSettings where
  systemContext : String
  mergeTemplate : String
  tau : ℚ
  maxTokens : Nat
  deriving DecidableEq, Repr

def proposalBPlaceholder : List Char := "\x7bproposal_b\x7d".toList

def MergeSettings.chain (m : MergeSettings) (a b : String) : ChainedRequest where
  initialSystemContext := m.systemContext ++ "\n\n## Current Best:\n" ++ a
  steps :=
    [⟨String.ofList (replaceText m.mergeTemplate.toList proposalBPlaceholder b.toList), m.tau,
      m.maxTokens⟩]

/-- One round: the pairs are merged at once, and the bye is appended. -/
def mergeRound (execute : Execute) (m : MergeSettings) (current : List String) :
    Sent (List String) :=
  let split := splitPairs current
  let merged := joinAll (split.1.map fun pair => executeChain execute (m.chain pair.1 pair.2))
  ⟨merged.requests, merged.result.map fun next => next ++ split.2.toList⟩

structure TournamentRun where
  rounds : List (List ComputeRequest)
  result : Except AdapterError String

/-! ## Lengths -/

theorem splitPairs_length {α : Type} (items : List α) :
    2 * (splitPairs items).1.length + (splitPairs items).2.toList.length = items.length ∧
      (splitPairs items).2.toList.length ≤ 1 := by
  induction items using splitPairs.induct with
  | case1 a b rest ih =>
      simp only [splitPairs, List.length_cons]
      omega
  | case2 a => simp [splitPairs]
  | case3 => simp [splitPairs]

theorem mergeRound_length {execute : Execute} {m : MergeSettings} {current next : List String}
    (h : (mergeRound execute m current).result = .ok next) :
    next.length = (current.length + 1) / 2 := by
  have hsplit := splitPairs_length current
  simp only [mergeRound, joinAll] at h
  cases hmerged : (((splitPairs current).1.map fun pair =>
      executeChain execute (m.chain pair.1 pair.2)).mapM Sent.result) with
  | error e =>
      rw [hmerged] at h
      cases h
  | ok merged =>
      rw [hmerged] at h
      cases h
      have hlength := (Lib.forall₂_of_mapM_ok hmerged).length_eq
      rw [List.length_map] at hlength
      rw [List.length_append]
      omega

/-! ## The tournament -/

/-- The rounds of `tournament_merge`. Each one halves the number of proposals. -/
def tournamentRounds (execute : Execute) (m : MergeSettings) (current : List String) :
    TournamentRun :=
  if 1 < current.length then
    let round := mergeRound execute m current
    match _hround : round.result with
    | .error e => ⟨[round.requests], .error e⟩
    | .ok next =>
        let later := tournamentRounds execute m next
        ⟨round.requests :: later.rounds, later.result⟩
  else ⟨[], .ok (current.headD "")⟩
termination_by current.length
decreasing_by
  have hlength := mergeRound_length _hround
  omega

def tournamentMerge (execute : Execute) (m : MergeSettings) (proposals : List String) :
    TournamentRun :=
  if proposals.isEmpty then ⟨[], .ok ""⟩
  else tournamentRounds execute m proposals

end ControlPlane.Source.Adapters
