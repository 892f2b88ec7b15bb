import ControlPlane.Lib.Medoid
import ControlPlane.Source.Consensus.CommonGround
import Mathlib.Data.List.FinRange
import Mathlib.Data.List.MinMax
import Mathlib.Data.Rat.Cast.Defs

/-!
# Krum and Multi-Krum

Embeds `crates/h2ai-state/src/krum.rs`. A matrix of `n` proposals is indexed by
`Fin n` and a reference into the slice of proposals is its position there.
`min_by` returns the first of several minima, as `List.argmin` does.
-/
namespace ControlPlane.Source.Consensus.Krum

open Lib Constraints Verification

variable {K : Type} [Field K] [LinearOrder K]

/-- `token_jaccard` of `krum.rs`: two texts without tokens are alike. -/
def tokenJaccard (x : Externals) (a b : String) : K :=
  let ta := tokenize x a
  let tb := tokenize x b
  if ta = ∅ ∧ tb = ∅ then 1
  else ((ta ∩ tb).card : K) / (ta ∪ tb).card

/-- `min_quorum`. -/
def minQuorum (f : Nat) : Nat := 2 * f + 3

/-- `quorum_satisfied`. -/
def quorumSatisfied (n f : Nat) : Bool := decide (n ≥ minQuorum f)

/-- `semantic_distance_matrix`. -/
def semanticDistanceMatrix (x : Externals) (sqrt : K → K) (proposals : List ProposalEvent)
    (embeddingModel : Option (EmbeddingModel K)) :
    Fin proposals.length → Fin proposals.length → K :=
  symmetricMatrix 0 fun i j =>
    let a := (proposals.get i).rawOutput
    let b := (proposals.get j).rawOutput
    match embeddingModel with
    | some m => 1 - embeddedSimilarity sqrt m a b
    | none => 1 - tokenJaccard x a b

/-- `mean_pairwise_distance`. -/
def meanPairwiseDistance (x : Externals) (sqrt : K → K) (proposals : List ProposalEvent)
    (embeddingModel : Option (EmbeddingModel K)) : K :=
  let n := proposals.length
  if n < 2 then 0
  else
    let dist := semanticDistanceMatrix x sqrt proposals embeddingModel
    let pairsCount := n * (n - 1) / 2
    let total := ((List.finRange n).flatMap fun i =>
      ((List.finRange n).filter fun j => decide (i < j)).map fun j => dist i j).sum
    total / (pairsCount : K)

/-- `MAX_CLUSTER_DIAMETER`. -/
def maxClusterDiameter : K := 7 / 10

/-- `cluster_coherent`. -/
def clusterCoherent (x : Externals) (sqrt : K → K) (proposals : List ProposalEvent)
    (embeddingModel : Option (EmbeddingModel K)) : Bool :=
  match embeddingModel with
  | none => false
  | some _ => decide (meanPairwiseDistance x sqrt proposals embeddingModel < maxClusterDiameter)

variable {n : Nat}

/-- `krum_score_subset`: the sum of the `k` smallest distances to the rest of the subset. -/
def krumScoreSubset (idx : Fin n) (subset : List (Fin n)) (distances : Fin n → Fin n → K)
    (k : Nat) : K :=
  smallestSum k ((subset.filter fun j => decide (j ≠ idx)).map fun j => distances idx j)

/-- `krum_index`. -/
def krumIndex (distances : Fin n → Fin n → K) (k : Nat) : Option (Fin n) :=
  let all := List.finRange n
  (List.finRange n).argmin fun i => krumScoreSubset i all distances k

/-- `krum_select_semantic`. -/
def krumSelectSemantic (x : Externals) (sqrt : K → K) (proposals : List ProposalEvent) (f : Nat)
    (embeddingModel : Option (EmbeddingModel K)) : Option (Fin proposals.length) :=
  if embeddingModel.isNone then none
  else if proposals.isEmpty then none
  else if f = 0 then (List.finRange proposals.length).head?
  else if !quorumSatisfied proposals.length f then none
  else
    let distances := semanticDistanceMatrix x sqrt proposals embeddingModel
    let k := proposals.length - f - 2
    krumIndex distances k

/-- The position in `remaining` of the candidate with the minimum score. -/
def bestPos (distances : Fin n → Fin n → K) (f : Nat) (remaining : List (Fin n)) :
    Option (Fin remaining.length) :=
  let k := remaining.length - f - 2
  (List.finRange remaining.length).argmin fun a =>
    krumScoreSubset (remaining.get a) remaining distances k

/-- The selection loop with `m` proposals still to select; `none` is the panic of `expect`. -/
def multiKrumRounds (distances : Fin n → Fin n → K) (f : Nat) :
    Nat → List (Fin n) → Option (List (Fin n))
  | 0, _ => some []
  | m + 1, remaining =>
      if remaining.length > f + 2 then
        match bestPos distances f remaining with
        | none => none
        | some best =>
            (multiKrumRounds distances f m (remaining.eraseIdx best)).map
              (remaining.get best :: ·)
      else some []

/-- `multi_krum_select_semantic`. -/
def multiKrumSelectSemantic (x : Externals) (sqrt : K → K) (proposals : List ProposalEvent)
    (f m : Nat) (embeddingModel : Option (EmbeddingModel K)) :
    Option (List (Fin proposals.length)) :=
  if embeddingModel.isNone then some []
  else if proposals.isEmpty ∨ m = 0 then some []
  else if f = 0 then some ((List.finRange proposals.length).take m)
  else if !quorumSatisfied proposals.length f then some []
  else
    let distances := semanticDistanceMatrix x sqrt proposals embeddingModel
    multiKrumRounds distances f m (List.finRange proposals.length)

/-! ## What one selection does -/

/-- The best position is the first one of minimum score. -/
theorem bestPos_spec {distances : Fin n → Fin n → K} {f : Nat} {remaining : List (Fin n)}
    {best : Fin remaining.length} (h : bestPos distances f remaining = some best)
    (other : Fin remaining.length) :
    krumScoreSubset (remaining.get best) remaining distances (remaining.length - f - 2) ≤
        krumScoreSubset (remaining.get other) remaining distances (remaining.length - f - 2) ∧
      (krumScoreSubset (remaining.get other) remaining distances (remaining.length - f - 2) ≤
        krumScoreSubset (remaining.get best) remaining distances (remaining.length - f - 2) →
        best ≤ other) := by
  obtain ⟨-, hmin, hfirst⟩ := List.argmin_eq_some_iff.mp h
  refine ⟨hmin other (List.mem_finRange other), ?_⟩
  intro hle
  have hidx := hfirst other (List.mem_finRange other) hle
  simp only [List.idxOf_finRange] at hidx
  exact Fin.le_def.mpr hidx

theorem bestPos_isSome (distances : Fin n → Fin n → K) (f : Nat) (remaining : List (Fin n))
    (h : 0 < remaining.length) : ∃ best, bestPos distances f remaining = some best := by
  rw [← Option.isSome_iff_exists, Option.isSome_iff_ne_none]
  unfold bestPos
  rw [Ne, List.argmin_eq_none, List.finRange_eq_nil_iff]
  omega

theorem krumIndex_isSome (distances : Fin n → Fin n → K) (h : 0 < n) (k : Nat) :
    ∃ i, krumIndex distances k = some i := by
  rw [← Option.isSome_iff_exists, Option.isSome_iff_ne_none]
  unfold krumIndex
  rw [Ne, List.argmin_eq_none, List.finRange_eq_nil_iff]
  omega

/-- The loop never panics. -/
theorem multiKrumRounds_isSome (distances : Fin n → Fin n → K) (f m : Nat)
    (remaining : List (Fin n)) :
    ∃ picks, multiKrumRounds distances f m remaining = some picks := by
  induction m generalizing remaining with
  | zero => exact ⟨[], rfl⟩
  | succ m ih =>
      by_cases hsize : remaining.length > f + 2
      · obtain ⟨best, hbest⟩ := bestPos_isSome distances f remaining (by omega)
        obtain ⟨picks, hpicks⟩ := ih (remaining.eraseIdx best)
        exact ⟨remaining.get best :: picks, by
          simp only [multiKrumRounds, hsize, ↓reduceIte, hbest, hpicks, Option.map_some]⟩
      · exact ⟨[], by simp only [multiKrumRounds, hsize, ↓reduceIte]⟩

/-- Whenever Krum is applied it selects a proposal. -/
theorem krumSelectSemantic_isSome (x : Externals) (sqrt : K → K) {proposals : List ProposalEvent}
    {f : Nat} (quorum : quorumSatisfied proposals.length f = true) {embeddingModel : Option _}
    (present : embeddingModel.isSome = true) :
    ∃ i, krumSelectSemantic x sqrt proposals f embeddingModel = some i := by
  have hn : 2 * f + 3 ≤ proposals.length := of_decide_eq_true quorum
  have hnonempty : ¬ proposals.isEmpty := by
    rw [List.isEmpty_iff_length_eq_zero]
    omega
  have hmodel : ¬ embeddingModel.isNone := by simpa using Option.isSome_iff_ne_none.mp present
  unfold krumSelectSemantic
  rw [if_neg hmodel, if_neg hnonempty]
  split_ifs with hf hquorum
  · exact ⟨⟨0, by omega⟩, by
      rw [List.head?_eq_getElem?, List.getElem?_eq_getElem (by rw [List.length_finRange]; omega)]
      simp⟩
  · simp [quorum] at hquorum
  · exact krumIndex_isSome _ (by omega) _

/-- Whenever Multi-Krum is applied it answers, and selects nobody only if it is asked for
nobody. -/
theorem multiKrumSelectSemantic_isSome (x : Externals) (sqrt : K → K)
    {proposals : List ProposalEvent} {f : Nat}
    (quorum : quorumSatisfied proposals.length f = true) {embeddingModel : Option _}
    (present : embeddingModel.isSome = true) (m : Nat) :
    ∃ picks, multiKrumSelectSemantic x sqrt proposals f m embeddingModel = some picks ∧
      (picks = [] ↔ m = 0) := by
  have hn : 2 * f + 3 ≤ proposals.length := of_decide_eq_true quorum
  have hnonempty : ¬ proposals.isEmpty := by
    rw [List.isEmpty_iff_length_eq_zero]
    omega
  have hmodel : ¬ embeddingModel.isNone := by simpa using Option.isSome_iff_ne_none.mp present
  unfold multiKrumSelectSemantic
  rw [if_neg hmodel]
  cases m with
  | zero => exact ⟨[], by simp⟩
  | succ m =>
      rw [if_neg (by simp [hnonempty])]
      split_ifs with hf hquorum
      · refine ⟨_, rfl, ?_⟩
        simp only [iff_false]
        intro hnil
        have hlength := congrArg List.length hnil
        rw [List.length_take, List.length_finRange, List.length_nil] at hlength
        omega
      · simp [quorum] at hquorum
      · have hsize : (List.finRange proposals.length).length > f + 2 := by
          rw [List.length_finRange]
          omega
        obtain ⟨best, hbest⟩ := bestPos_isSome (semanticDistanceMatrix x sqrt proposals
          embeddingModel) f (List.finRange proposals.length) (by omega)
        obtain ⟨picks, hpicks⟩ := multiKrumRounds_isSome (semanticDistanceMatrix x sqrt proposals
          embeddingModel) f m ((List.finRange proposals.length).eraseIdx best)
        refine ⟨(List.finRange proposals.length).get best :: picks, ?_, by simp⟩
        simp only [multiKrumRounds, hsize, ↓reduceIte, hbest, hpicks, Option.map_some]

end ControlPlane.Source.Consensus.Krum
