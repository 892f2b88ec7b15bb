import ControlPlane.Source.Consensus.Krum
import ControlPlane.Source.Consensus.Osp
import ControlPlane.Source.Consensus.CommonGround
import Mathlib.Data.List.FinRange
import Mathlib.Data.List.MinMax
import Mathlib.Data.Rat.Cast.Order

/-!
# Merge strategies

Embeds `MergeEngine::resolve` of `crates/h2ai-autonomic/src/merger.rs` with every
`MergeStrategy`, and with or without an `OspConfig`. A selector answers with a position in
the valid proposals. The outer `none` is the panic of `weiszfeld_select` or of
`multi_krum_select_semantic`. The analysis of contradictions is left out.
-/

/-!
## Geometric median

Embeds `crates/h2ai-state/src/weiszfeld.rs` over exact rationals with the square root as
a parameter. An embedding that is longer than the first one is an index out of bounds,
which panics; `min_by` returns the first of several minima.
-/
namespace ControlPlane.Source.Consensus.Weiszfeld

/-- `median[i] += w * v` for every component of the embedding. -/
def addScaled (w : ℚ) (embedding median : List ℚ) : List ℚ :=
  median.mapIdx fun i m => m + w * (embedding[i]?).getD 0

/-- The mean of the embeddings, the start of the iteration. -/
def meanVector (dim : Nat) (embeddings : List (List ℚ)) : List ℚ :=
  (embeddings.foldl (fun acc e => addScaled 1 e acc) (List.replicate dim 0)).map
    (· / embeddings.length)

/-- The distance of an embedding from the median, clamped away from zero. -/
def clampedDistance (sqrt : ℚ → ℚ) (median embedding : List ℚ) : ℚ :=
  max (sqrt (List.zipWith (fun a b => (a - b) ^ 2) embedding median).sum) (1 / 10 ^ 8)

/-- The iterations that are left; one with too small a weight stops. -/
def iterations (sqrt : ℚ → ℚ) (dim : Nat) (embeddings : List (List ℚ)) :
    Nat → List ℚ → List ℚ
  | 0, median => median
  | n + 1, median =>
      let weights := embeddings.map fun e => 1 / clampedDistance sqrt median e
      let weightSum := weights.sum
      if weightSum < 1 / 10 ^ 12 then median
      else
        let sums := (embeddings.zip weights).foldl (fun acc e => addScaled e.2 e.1 acc)
          (List.replicate dim 0)
        iterations sqrt dim embeddings n (sums.map (· / weightSum))

/-- The norm of a vector, at least `1e-12`. -/
def clampedNorm (sqrt : ℚ → ℚ) (vector : List ℚ) : ℚ :=
  max (sqrt (vector.map fun v => v ^ 2).sum) (1 / 10 ^ 12)

/-- The cosine distance of an embedding from the median. -/
def cosineDistance (sqrt : ℚ → ℚ) (median embedding : List ℚ) : ℚ :=
  1 - (List.zipWith (· * ·) embedding median).sum /
    (clampedNorm sqrt embedding * clampedNorm sqrt median)

/-- `weiszfeld_select`. -/
def weiszfeldSelect (sqrt : ℚ → ℚ) (embeddings : List (List ℚ)) (maxIter : Nat) : Option Nat :=
  let dim := (embeddings.headD []).length
  if embeddings.length ≤ 1 ∨ dim = 0 then some 0
  else if embeddings.any fun e => decide (dim < e.length) then none
  else
    let median := iterations sqrt dim embeddings maxIter (meanVector dim embeddings)
    let nearest := (List.finRange embeddings.length).argmin fun i =>
      cosineDistance sqrt median (embeddings.get i)
    some ((nearest.map Fin.val).getD 0)

/-! ## The index -/

theorem weiszfeldSelect_lt {sqrt : ℚ → ℚ} {embeddings : List (List ℚ)} {maxIter i : Nat}
    (h : weiszfeldSelect sqrt embeddings maxIter = some i) (nonempty : 0 < embeddings.length) :
    i < embeddings.length := by
  unfold weiszfeldSelect at h
  dsimp only at h
  split_ifs at h
  · exact Option.some.inj h ▸ nonempty
  · rw [← Option.some.inj h]
    cases hnearest : (List.finRange embeddings.length).argmin fun i =>
        cosineDistance sqrt (iterations sqrt (embeddings.headD []).length embeddings maxIter
          (meanVector (embeddings.headD []).length embeddings)) (embeddings.get i) with
    | none => exact nonempty
    | some nearest => exact nearest.isLt

/-- Embeddings that are not longer than the first one are no panic. -/
theorem weiszfeldSelect_isSome (sqrt : ℚ → ℚ) {embeddings : List (List ℚ)} (maxIter : Nat)
    (fits : ∀ e ∈ embeddings, (embeddings.headD []) ≠ [] →
      e.length ≤ (embeddings.headD []).length) :
    ∃ i, weiszfeldSelect sqrt embeddings maxIter = some i := by
  unfold weiszfeldSelect
  dsimp only
  split_ifs with hsmall hlong
  · exact ⟨0, rfl⟩
  · exfalso
    obtain ⟨e, he, hlt⟩ := List.any_eq_true.mp hlong
    rw [not_or] at hsmall
    have hne : embeddings.headD [] ≠ [] := by
      intro hnil
      exact hsmall.2 (by rw [hnil]; rfl)
    exact absurd (fits e he hne) (Nat.not_le.mpr (of_decide_eq_true hlt))
  · exact ⟨_, rfl⟩

end ControlPlane.Source.Consensus.Weiszfeld

namespace ControlPlane.Source.Consensus

open Verification MapeK

inductive MergeStrategy where
  | scoreOrdered
  | consensusMedian
  | outlierResistant (f : Nat)
  | multiOutlierResistant (f m : Nat)
  deriving DecidableEq, Repr

/-- What a branch of the dispatch selects, with its `selection_mode`. -/
structure Selection (proposals : List ProposalEvent) where
  position : Option (Fin proposals.length)
  mode : String

/-- `.map(|p| p.raw_output.clone()).unwrap_or_default()`. -/
def Selection.output {proposals : List ProposalEvent} (s : Selection proposals) : String :=
  (s.position.map fun i => (proposals.get i).rawOutput).getD ""

/-- `first()`. -/
def firstPosition (proposals : List ProposalEvent) : Option (Fin proposals.length) :=
  (List.finRange proposals.length).head?

/-- `get(idx)`. -/
def positionAt (proposals : List ProposalEvent) (idx : Nat) : Option (Fin proposals.length) :=
  if h : idx < proposals.length then some ⟨idx, h⟩ else none

section Dispatch

variable (p : MergeParts) (proposals : List ProposalEvent)

/-- The OSP path. -/
def ospChoice (config : OspConfig) (scores : List ℚ) : Selection proposals :=
  match classifyOspRegime scores config.tV with
  | .singleSurvivor => ⟨firstPosition proposals, "OSP-SingleSurvivor"⟩
  | .clearLeader => ⟨firstPosition proposals, "OSP-ClearLeader"⟩
  | .tightCluster =>
      ⟨Median.resolve p.externals p.sqrt proposals p.embeddingModel, "OSP-TightCluster"⟩

/-- Quorum not met, or the cluster assumption violated. -/
def outlierFallback : Option (Selection proposals) :=
  match p.embeddingModel with
  | some model =>
      let embeddings := proposals.map fun q => model.embed q.rawOutput
      (Weiszfeld.weiszfeldSelect p.sqrt embeddings 20).map fun idx =>
        ⟨positionAt proposals idx, "OutlierResistant-Weiszfeld"⟩
  | none =>
      some ⟨Median.resolve p.externals p.sqrt proposals none,
        "OutlierResistant-ConsensusMedian"⟩

/-- The guard of both outlier-resistant strategies. -/
def krumApplies (f : Nat) : Bool :=
  Krum.quorumSatisfied proposals.length f &&
    Krum.clusterCoherent p.externals p.sqrt proposals p.embeddingModel

/-- The survivor that stands first among the proposals. -/
def firstSurvivor (survivors : List (Fin proposals.length)) : Option (Fin proposals.length) :=
  (List.finRange proposals.length).find? fun i =>
    survivors.any fun s => (proposals.get s).explorerId == (proposals.get i).explorerId

/-- The dispatch without an `OspConfig`. -/
def strategyChoice : MergeStrategy → Option (Selection proposals)
  | .consensusMedian =>
      some ⟨Median.resolve p.externals p.sqrt proposals p.embeddingModel, "ConsensusMedian"⟩
  | .scoreOrdered => some ⟨firstPosition proposals, "ScoreOrdered"⟩
  | .outlierResistant f =>
      if krumApplies p proposals f then
        some ⟨Krum.krumSelectSemantic p.externals p.sqrt proposals f p.embeddingModel,
          "OutlierResistant-Krum"⟩
      else outlierFallback p proposals
  | .multiOutlierResistant f m =>
      if krumApplies p proposals f then
        (Krum.multiKrumSelectSemantic p.externals p.sqrt proposals f m p.embeddingModel).map
          fun survivors => ⟨firstSurvivor proposals survivors, "MultiKrum"⟩
      else outlierFallback p proposals

/-- The dispatch of `resolve`: an `OspConfig` takes the place of the strategy. -/
def selectProposal (strategy : MergeStrategy) (config : Option OspConfig) (scores : List ℚ) :
    Option (Selection proposals) :=
  match config with
  | some config => some (ospChoice p proposals config scores)
  | none => strategyChoice p proposals strategy

end Dispatch

/-- What `resolve` is called with besides the proposals. -/
structure MergeCall where
  taskId : String
  strategy : MergeStrategy
  retryCount : Nat
  violations : Option (List ConstraintViolation)
  accumulator : Option RetryAccumulator
  config : Option OspConfig

/-- The answer, with `merge_strategy` of its selection event and the accumulator. -/
structure MergeAnswer where
  outcome : MergeOutcome
  mergeStrategy : MergeStrategy
  accumulator : Option RetryAccumulator

/-- The answer once a selection was made. -/
def resolvedAnswer (p : MergeParts) (call : MergeCall) (nInput : Nat)
    (result : SemilatticeResult ℚ) (selection : Selection result.validProposals) : MergeAnswer :=
  let nV := result.validProposals.length
  let nF := failedCount result.failedProposals.length call.violations
  let zone3 := call.config.bind fun config => call.violations.bind fun v =>
    buildZone3 p v nF nV call.retryCount config
  let accumulator := call.accumulator.map fun acc =>
    match call.config, call.violations with
    | some config, some v => acc.update v nF config.accumulationDecay
    | _, _ => acc
  { outcome := .resolved
      { taskId := call.taskId
        validProposals := result.validProposals.map (·.explorerId)
        prunedProposals := result.prunedProposals.map fun e => (e.explorerId, e.reason)
        nInputProposals := nInput
        nFailedProposals := result.failedProposals.length
        mergeSelectionMode := selection.mode } selection.output zone3
    mergeStrategy := call.strategy
    accumulator := accumulator }

/-- `MergeEngine::resolve`. -/
def mergeProposals (p : MergeParts) (call : MergeCall) (proposals : ProposalSet ℚ)
    (pruned : List BranchPrunedEvent) : Option MergeAnswer :=
  let nInput := proposals.table.entries.length + pruned.length
  let result := compile call.taskId proposals pruned
  if result.validProposals.isEmpty then
    some ⟨.zeroSurvival call.taskId call.retryCount, call.strategy, call.accumulator⟩
  else
    (selectProposal p result.validProposals call.strategy call.config
      result.validProposalScores).map (resolvedAnswer p call nInput result)

/-! ## The OSP path -/

theorem firstPosition_get (proposals : List ProposalEvent) :
    (firstPosition proposals).map proposals.get = proposals.head? := by
  unfold firstPosition
  rw [← List.head?_map, ← List.ofFn_eq_map, List.ofFn_get]

theorem ospChoice_eq (p : MergeParts) (config : OspConfig) (result : SemilatticeResult ℚ) :
    ospSelection p config result =
      ((ospChoice p result.validProposals config result.validProposalScores).output,
        (ospChoice p result.validProposals config result.validProposalScores).mode) := by
  have hfirst : (result.validProposals.head?.map (·.rawOutput)).getD "" =
      ((firstPosition result.validProposals).map
        fun i => (result.validProposals.get i).rawOutput).getD "" := by
    rw [← firstPosition_get, Option.map_map]
    rfl
  unfold ospSelection ospChoice
  dsimp only
  rw [hfirst]
  cases classifyOspRegime result.validProposalScores config.tV <;> rfl

/-- With an accumulator and an `OspConfig` this is the merge that the rates are taken in. -/
theorem mergeProposals_osp (p : MergeParts) (taskId : String) (strategy : MergeStrategy)
    (retryCount : Nat) (violations : Option (List ConstraintViolation)) (acc : RetryAccumulator)
    (config : OspConfig) (proposals : ProposalSet ℚ) (pruned : List BranchPrunedEvent) :
    let step := MergeEngine.resolve p taskId proposals pruned retryCount violations acc config
    mergeProposals p ⟨taskId, strategy, retryCount, violations, some acc, some config⟩ proposals
      pruned = some ⟨step.outcome, strategy, some step.accumulator⟩ := by
  unfold mergeProposals MergeEngine.resolve
  dsimp only
  split_ifs with hempty
  · rfl
  · rw [ospChoice_eq]
    cases violations <;> rfl

end ControlPlane.Source.Consensus
