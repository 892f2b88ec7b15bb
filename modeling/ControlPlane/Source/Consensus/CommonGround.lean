import ControlPlane.Lib.Numerals
import ControlPlane.Source.Constraints.Eval
import ControlPlane.Source.Verification.Phase
import Mathlib.Algebra.Order.Field.Basic
import Mathlib.Algebra.Order.Floor.Ring

/-!
# Common Ground and the ensemble ceiling

Embeds `adapter_pair_cg`, `constraint_fingerprint` and `hamming_distance` of
`crates/h2ai-autonomic/src/calibration.rs`, the samples a calibration takes with them, and
`cg_mean`, `beta_eff`, `n_max` and `tau_alignment` of `crates/h2ai-types/src/sizing.rs`.
Numbers are exact; the square root and the exponential are parameters.
-/

/-!
## Similarity of proposals

`cosine_similarity` and `EmbeddingModel` of `crates/h2ai-context/src/embedding.rs`,
and the pairwise matrices that `krum.rs` and `bft.rs` build from them. Numbers are
exact, in any ordered field; the square root is a parameter.
-/
namespace ControlPlane.Source.Consensus

open Verification

/-- An empty vector means that no embedding is available. -/
structure EmbeddingModel (K : Type) where
  embed : String → List K

variable {K : Type} [Field K] [LinearOrder K]

/-- `cosine_similarity`. -/
def cosineSimilarity (sqrt : K → K) (a b : List K) : K :=
  if a.length ≠ b.length ∨ a = [] then 0
  else
    let dot := (List.zipWith (· * ·) a b).sum
    let normA := sqrt (a.map fun v => v * v).sum
    let normB := sqrt (b.map fun v => v * v).sum
    if normA < 1 / 10 ^ 9 ∨ normB < 1 / 10 ^ 9 then 0
    else max (-1) (min 1 (dot / (normA * normB)))

/-- The similarity of two outputs that `krum.rs` and `bft.rs` read off the
embeddings, with exact equality where one of them is missing. -/
def embeddedSimilarity (sqrt : K → K) (model : EmbeddingModel K) (a b : String) : K :=
  if model.embed a = [] ∨ model.embed b = [] then
    if a = b then 1 else 0
  else max (cosineSimilarity sqrt (model.embed a) (model.embed b)) 0

/-- A matrix filled from its upper triangle: `m[i][j] = m[j][i] = pair i j` for `i < j`. -/
def symmetricMatrix {n : Nat} (diagonal : K) (pair : Fin n → Fin n → K) : Fin n → Fin n → K :=
  fun i j => if i < j then pair i j else if j < i then pair j i else diagonal

omit [Field K] [LinearOrder K] in
/-- A pair function that is symmetric already is the matrix off the diagonal. -/
theorem symmetricMatrix_of_comm {n : Nat} (diagonal : K) {pair : Fin n → Fin n → K}
    (comm : ∀ i j, pair i j = pair j i) (i j : Fin n) :
    symmetricMatrix diagonal pair i j = if i = j then diagonal else pair i j := by
  unfold symmetricMatrix
  rcases lt_trichotomy i j with hlt | heq | hgt
  · simp [hlt, hlt.ne]
  · simp [heq]
  · simp [hgt, not_lt.mpr hgt.le, hgt.ne', comm j i]

end ControlPlane.Source.Consensus

namespace ControlPlane.Source.Consensus.CommonGround

open Constraints

variable {K : Type} [Field K] [LinearOrder K]

structure CalibrationConfig (K : Type) where
  calibrationCgFallback : K
  cgAgreementThreshold : K

/-- The measurement of a calibration: by embeddings where there is a model. -/
structure Measurement (K : Type) where
  externals : Externals
  sqrt : K → K
  cfg : CalibrationConfig K
  embeddingModel : Option (EmbeddingModel K)
  corpus : List ConstraintDoc

/-- `constraint_fingerprint`: which hard gates the output passes. -/
def constraintFingerprint (x : Externals) (output : String) (corpus : List ConstraintDoc) :
    List Bool :=
  corpus.map fun doc =>
    let score := evalSync x output doc.predicate
    match doc.severity with
    | .hard threshold => decide (threshold ≤ score)
    | _ => true

/-- `hamming_distance`: the share of the positions that differ. -/
def hammingDistance (a b : List Bool) : K :=
  if a.isEmpty ∨ a.length ≠ b.length then 1
  else (((a.zip b).filter fun p => p.1 != p.2).length : K) / (a.length : K)

/-- What one prompt adds to the score of two adapters. -/
def promptScore (m : Measurement K) (outputs : String × String) : K :=
  match m.embeddingModel with
  | some model =>
      let sim := embeddedSimilarity m.sqrt model outputs.1 outputs.2
      if m.cfg.cgAgreementThreshold ≤ sim then 1 else 0
  | none =>
      if m.corpus.isEmpty then m.cfg.calibrationCgFallback
      else
        hammingDistance (constraintFingerprint m.externals outputs.1 m.corpus)
          (constraintFingerprint m.externals outputs.2 m.corpus)

/-- `adapter_pair_cg`. -/
def adapterPairCg (m : Measurement K) (align : K) (outputsI outputsJ : List String) : K :=
  if outputsI.isEmpty ∨ outputsI.length ≠ outputsJ.length then m.cfg.calibrationCgFallback * align
  else
    let scores := (outputsI.zip outputsJ).map (promptScore m)
    scores.sum / (scores.length : K) * align

/-- `tau_alignment`. -/
def tauAlignment (exp : K → K) (a b : K) : K := exp (-3 * |a - b|)

/-- The pairs `i < j`. -/
def adapterPairs {α : Type} : List α → List (α × α)
  | [] => []
  | a :: rest => rest.map (a, ·) ++ adapterPairs rest

/-- The samples of a calibration: one for each pair of adapters. -/
def cgSamples (m : Measurement K) (align : K) (adapterOutputs : List (List String)) : List K :=
  if adapterOutputs.length < 2 then [m.cfg.calibrationCgFallback]
  else (adapterPairs adapterOutputs).map fun p => adapterPairCg m align p.1 p.2

/-- `CoherencyCoefficients`, with what `new` checks. -/
structure CoherencyCoefficients (K : Type) [Field K] [LinearOrder K] where
  alpha : K
  betaBase : K
  betaQuality : Option K
  cgSamples : List K
  alphaRange : 0 ≤ alpha ∧ alpha < 1
  betaNonneg : 0 ≤ betaBase
  sampled : cgSamples ≠ []

namespace CoherencyCoefficients

def cgMean (c : CoherencyCoefficients K) : K := c.cgSamples.sum / (c.cgSamples.length : K)

/-- `beta_eff`, with the floor of a millionth. -/
def betaEff (c : CoherencyCoefficients K) : K :=
  match c.betaQuality with
  | some bq => max bq (1 / 10 ^ 6)
  | none =>
      let cg := max 0 (min 1 c.cgMean)
      max (c.betaBase * (1 - cg)) (1 / 10 ^ 6)

/-- `f64::round` of a number that is not negative. -/
def roundNonneg [FloorRing K] (v : K) : K := (⌊v + 1 / 2⌋ : ℤ)

/-- `n_max`; `f64::EPSILON` is `2⁻⁵²`. -/
def nMax [FloorRing K] (sqrt : K → K) (c : CoherencyCoefficients K) : K :=
  let beta := max c.betaEff (1 / 2 ^ 52)
  roundNonneg (sqrt (max (1 - c.alpha) 0 / beta))

end CoherencyCoefficients

theorem adapterPairs_ne_nil {α : Type} {l : List α} (h : ¬ l.length < 2) :
    adapterPairs l ≠ [] := by
  match l with
  | [] => simp at h
  | [_] => simp at h
  | a :: b :: rest => simp [adapterPairs]

theorem cgSamples_ne_nil (m : Measurement K) (align : K) (adapterOutputs : List (List String)) :
    cgSamples m align adapterOutputs ≠ [] := by
  unfold cgSamples
  split
  · simp
  · next h => simpa using adapterPairs_ne_nil h

/-- The coefficients that a calibration makes of the outputs of its adapters. -/
def calibrated (m : Measurement K) (align : K) {alpha betaBase : K}
    (alphaRange : 0 ≤ alpha ∧ alpha < 1) (betaNonneg : 0 ≤ betaBase)
    (adapterOutputs : List (List String)) : CoherencyCoefficients K where
  alpha := alpha
  betaBase := betaBase
  betaQuality := none
  cgSamples := cgSamples m align adapterOutputs
  alphaRange := alphaRange
  betaNonneg := betaNonneg
  sampled := cgSamples_ne_nil m align adapterOutputs

end ControlPlane.Source.Consensus.CommonGround
