import ControlPlane.Source.Consensus.CommonGround
import Mathlib.Analysis.Real.Sqrt
import Mathlib.Analysis.SpecialFunctions.Exp
import Mathlib.Algebra.Order.BigOperators.Group.List

/-!
# More agreement and the ensemble ceiling

With an embedding model Common Ground counts agreements, without one it is the distance of
the fingerprints. So more agreement raises the ceiling on the first path, and on the second
one only where there is nothing to tell apart.
-/
namespace ControlPlane.Guarantees.AgreementCeiling

open Source.Constraints Source.Consensus Source.Consensus.CommonGround

/-! ## Statement -/

section Statement

variable {K : Type} [Field K] [LinearOrder K]

/-- Two outputs count as an agreement. -/
def Reaches (m : Measurement K) (model : EmbeddingModel K) (s : String × String) : Prop :=
  m.cfg.cgAgreementThreshold ≤ embeddedSimilarity m.sqrt model s.1 s.2

/-- On one prompt, the outputs `t` agree wherever the outputs `s` do: on each constraint, or
as texts where there is a model. -/
def AgreesWherever (m : Measurement K) (s t : String × String) : Prop :=
  match m.embeddingModel with
  | some model => Reaches m model s → Reaches m model t
  | none =>
      ∀ i : Nat, (constraintFingerprint m.externals s.1 m.corpus)[i]? =
          (constraintFingerprint m.externals s.2 m.corpus)[i]? →
        (constraintFingerprint m.externals t.1 m.corpus)[i]? =
          (constraintFingerprint m.externals t.2 m.corpus)[i]?

/-- Two adapters answered the same prompts in both runs, and agree in the second one
wherever they agree in the first. -/
structure PairAgreesMore (m : Measurement K) (p q : List String × List String) : Prop where
  first : p.1.length = p.2.length
  second : q.1.length = q.2.length
  prompts : List.Forall₂ (AgreesWherever m) (p.1.zip p.2) (q.1.zip q.2)

/-- The same of all pairs of adapters of two runs. -/
structure AgreesMore (m : Measurement K) (runA runB : List (List String)) : Prop where
  adapters : runA.length = runB.length
  pairs : List.Forall₂ (PairAgreesMore m) (adapterPairs runA) (adapterPairs runB)

/-- Identical outputs have the largest Common Ground over any number of prompts, and a run
with more agreement has a higher one, a lower cost and a higher ceiling. -/
structure AgreementHelps [FloorRing K] (m : Measurement K) (align : K) : Prop where
  identical : ∀ o a b : List String, a.length = o.length → b.length = o.length →
    adapterPairCg m align a b ≤ adapterPairCg m align o o
  ceiling : ∀ {alpha betaBase : K} (alphaRange : 0 ≤ alpha ∧ alpha < 1)
    (betaNonneg : 0 ≤ betaBase) (runA runB : List (List String)), AgreesMore m runA runB →
    (calibrated m align alphaRange betaNonneg runA).cgMean ≤
        (calibrated m align alphaRange betaNonneg runB).cgMean ∧
      (calibrated m align alphaRange betaNonneg runB).betaEff ≤
        (calibrated m align alphaRange betaNonneg runA).betaEff ∧
      (calibrated m align alphaRange betaNonneg runA).nMax m.sqrt ≤
        (calibrated m align alphaRange betaNonneg runB).nMax m.sqrt

/-- With a model: each text agrees with itself, or no two texts agree. Without one: no two
texts have different fingerprints. -/
def Oriented (m : Measurement K) : Prop :=
  match m.embeddingModel with
  | some model => (∀ t, Reaches m model (t, t)) ∨ ∀ s, ¬ Reaches m model s
  | none => ∀ s t, constraintFingerprint m.externals s m.corpus =
      constraintFingerprint m.externals t m.corpus

end Statement

/-! ## One prompt -/

section Prompt

variable {K : Type} [Field K] [LinearOrder K] [IsStrictOrderedRing K]

omit [Field K] [LinearOrder K] [IsStrictOrderedRing K] in
theorem zip_self {α : Type} (l : List α) : l.zip l = l.map fun v => (v, v) := by
  have hmaps := List.zip_map' (f := id) (g := id) (l := l)
  simpa using hmaps

theorem hammingDistance_self {a : List Bool} (h : a ≠ []) : hammingDistance (K := K) a a = 0 := by
  have hnone : (a.zip a).filter (fun p => p.1 != p.2) = [] := by
    rw [zip_self, List.filter_eq_nil_iff]
    intro p hp
    obtain ⟨v, -, rfl⟩ := List.mem_map.mp hp
    simp
  rw [hammingDistance, if_neg (by simp [h]), hnone]
  simp

/-- Fingerprints without a distance are the same. -/
theorem eq_of_hammingDistance {a b : List Bool} (hlength : a.length = b.length)
    (h : hammingDistance (K := K) a b ≤ 0) : a = b := by
  by_cases hempty : a = []
  · subst hempty
    exact (List.length_eq_zero_iff.mp hlength.symm).symm
  · have hpos : 0 < (a.length : K) := Nat.cast_pos.mpr (List.length_pos_iff.mpr hempty)
    rw [hammingDistance, if_neg (by simp [hempty, hlength]), div_le_iff₀ hpos, zero_mul] at h
    have hnone : (a.zip b).filter (fun p => p.1 != p.2) = [] := by
      have hcount : ((a.zip b).filter fun p => p.1 != p.2).length ≤ 0 := by exact_mod_cast h
      exact List.length_eq_zero_iff.mp (Nat.le_zero.mp hcount)
    rw [List.filter_eq_nil_iff] at hnone
    apply List.ext_getElem hlength
    intro i ha hb
    have hmem : (a[i], b[i]) ∈ a.zip b := by
      have hi : i < (a.zip b).length := by rw [List.length_zip]; omega
      have hget : (a.zip b)[i] = (a[i], b[i]) := List.getElem_zip
      exact hget ▸ List.getElem_mem hi
    simpa using hnone _ hmem

variable {m : Measurement K}

theorem constraintFingerprint_length (x : Externals) (output : String)
    (corpus : List ConstraintDoc) : (constraintFingerprint x output corpus).length = corpus.length :=
  List.length_map _

/-- Where no two texts have different fingerprints, all prompts score the same. -/
theorem promptScore_const (hmodel : m.embeddingModel = none)
    (same : ∀ s t, constraintFingerprint m.externals s m.corpus =
      constraintFingerprint m.externals t m.corpus) (s t : String × String) :
    promptScore m s = promptScore m t := by
  unfold promptScore
  rw [hmodel]
  by_cases hcorpus : m.corpus.isEmpty = true
  · simp [hcorpus]
  · have hnonempty : ∀ text, constraintFingerprint m.externals text m.corpus ≠ [] := by
      intro text hnil
      have hlength := constraintFingerprint_length m.externals text m.corpus
      rw [hnil, List.length_nil] at hlength
      exact hcorpus (List.isEmpty_iff.mpr (List.length_eq_zero_iff.mp hlength.symm))
    have hzero : ∀ p : String × String,
        hammingDistance (K := K) (constraintFingerprint m.externals p.1 m.corpus)
          (constraintFingerprint m.externals p.2 m.corpus) = 0 := by
      intro p
      rw [same p.2 p.1]
      exact hammingDistance_self (hnonempty p.1)
    simp only [hcorpus, hzero]

omit [IsStrictOrderedRing K] in
theorem promptScore_model {model : EmbeddingModel K} (hmodel : m.embeddingModel = some model)
    (s : String × String) : (Reaches m model s → promptScore m s = 1) ∧
      (¬ Reaches m model s → promptScore m s = 0) := by
  unfold promptScore
  rw [hmodel]
  exact ⟨fun h => if_pos h, fun h => if_neg h⟩

/-- A text with itself scores as high as any two. -/
theorem promptScore_le_self (h : Oriented m) (s : String × String) (o : String) :
    promptScore m s ≤ promptScore m (o, o) := by
  cases hmodel : m.embeddingModel with
  | none =>
      rw [Oriented, hmodel] at h
      exact (promptScore_const hmodel h s (o, o)).le
  | some model =>
      rw [Oriented, hmodel] at h
      rcases h with hself | hnone
      · rw [(promptScore_model hmodel (o, o)).1 (hself o)]
        by_cases hs : Reaches m model s
        · exact ((promptScore_model hmodel s).1 hs).le
        · rw [(promptScore_model hmodel s).2 hs]
          exact zero_le_one
      · rw [(promptScore_model hmodel s).2 (hnone s), (promptScore_model hmodel (o, o)).2 (hnone _)]

theorem promptScore_mono (h : Oriented m) {s t : String × String} (hst : AgreesWherever m s t) :
    promptScore m s ≤ promptScore m t := by
  cases hmodel : m.embeddingModel with
  | none =>
      rw [Oriented, hmodel] at h
      exact (promptScore_const hmodel h s t).le
  | some model =>
      rw [AgreesWherever, hmodel] at hst
      by_cases hs : Reaches m model s
      · rw [(promptScore_model hmodel s).1 hs, (promptScore_model hmodel t).1 (hst hs)]
      · rw [(promptScore_model hmodel s).2 hs]
        by_cases ht : Reaches m model t
        · rw [(promptScore_model hmodel t).1 ht]
          exact zero_le_one
        · rw [(promptScore_model hmodel t).2 ht]

end Prompt

/-! ## Pairs and runs -/

section Runs

variable {K : Type} [Field K] [LinearOrder K] [IsStrictOrderedRing K] {m : Measurement K}
  {align : K}

/-- Common Ground follows the scores of the prompts. -/
theorem adapterPairCg_mono (halign : 0 ≤ align) {p q : List String × List String}
    (hp : p.1.length = p.2.length) (hq : q.1.length = q.2.length)
    (h : List.Forall₂ (fun s t => promptScore m s ≤ promptScore m t) (p.1.zip p.2)
      (q.1.zip q.2)) : adapterPairCg m align p.1 p.2 ≤ adapterPairCg m align q.1 q.2 := by
  have hlength := h.length_eq
  rw [List.length_zip, List.length_zip, ← hp, ← hq, Nat.min_self, Nat.min_self] at hlength
  unfold adapterPairCg
  by_cases hempty : p.1 = []
  · have hempty' : q.1 = [] := List.length_eq_zero_iff.mp (by simp [← hlength, hempty])
    simp [hempty, hempty']
  · have hempty' : q.1 ≠ [] := by
      intro hnil
      exact hempty (List.length_eq_zero_iff.mp (by simp [hlength, hnil]))
    rw [if_neg (by simp [hempty, hp]), if_neg (by simp [hempty', hq])]
    simp only [List.length_map, List.length_zip, ← hp, ← hq, Nat.min_self, ← hlength]
    have hsum : ((p.1.zip p.2).map (promptScore m)).sum ≤ ((q.1.zip q.2).map (promptScore m)).sum := by
      apply List.Forall₂.sum_le_sum
      rw [List.forall₂_map_left_iff, List.forall₂_map_right_iff]
      exact h
    exact mul_le_mul_of_nonneg_right
      (div_le_div_of_nonneg_right hsum (Nat.cast_nonneg _)) halign

theorem cgSamples_mono (halign : 0 ≤ align) (h : Oriented m) {runA runB : List (List String)}
    (hmore : AgreesMore m runA runB) :
    List.Forall₂ (· ≤ ·) (cgSamples m align runA) (cgSamples m align runB) := by
  unfold cgSamples
  rw [← hmore.adapters]
  split
  · exact List.Forall₂.cons le_rfl List.Forall₂.nil
  · rw [List.forall₂_map_left_iff, List.forall₂_map_right_iff]
    refine hmore.pairs.imp fun p q hpair => ?_
    exact adapterPairCg_mono halign hpair.first hpair.second
      (hpair.prompts.imp fun s t hst => promptScore_mono h hst)

theorem cgMean_mono {c c' : CoherencyCoefficients K}
    (h : List.Forall₂ (· ≤ ·) c.cgSamples c'.cgSamples) : c.cgMean ≤ c'.cgMean := by
  unfold CoherencyCoefficients.cgMean
  rw [h.length_eq]
  exact div_le_div_of_nonneg_right h.sum_le_sum (Nat.cast_nonneg _)

theorem betaEff_anti {c c' : CoherencyCoefficients K} (h : c.cgMean ≤ c'.cgMean)
    (hbase : c.betaBase = c'.betaBase) (hquality : c.betaQuality = none)
    (hquality' : c'.betaQuality = none) : c'.betaEff ≤ c.betaEff := by
  unfold CoherencyCoefficients.betaEff
  rw [hquality, hquality', ← hbase]
  have hclamp : max 0 (min 1 c.cgMean) ≤ max 0 (min 1 c'.cgMean) :=
    max_le_max le_rfl (min_le_min le_rfl h)
  have hcost : c.betaBase * (1 - max 0 (min 1 c'.cgMean)) ≤
      c.betaBase * (1 - max 0 (min 1 c.cgMean)) :=
    mul_le_mul_of_nonneg_left (sub_le_sub_left hclamp 1) c.betaNonneg
  exact max_le_max hcost le_rfl

theorem nMax_mono [FloorRing K] {sqrt : K → K} (hsqrt : Monotone sqrt)
    {c c' : CoherencyCoefficients K} (h : c'.betaEff ≤ c.betaEff)
    (halpha : c.alpha = c'.alpha) : c.nMax sqrt ≤ c'.nMax sqrt := by
  have hpos : 0 < max c'.betaEff (1 / 2 ^ 52) := lt_max_of_lt_right (by positivity)
  have hbeta : max c'.betaEff (1 / 2 ^ 52) ≤ max c.betaEff (1 / 2 ^ 52) := max_le_max h le_rfl
  have hratio : max (1 - c.alpha) 0 / max c.betaEff (1 / 2 ^ 52) ≤
      max (1 - c'.alpha) 0 / max c'.betaEff (1 / 2 ^ 52) := by
    rw [halpha]
    exact div_le_div_of_nonneg_left (le_max_right _ _) hpos hbeta
  have hroot : sqrt (max (1 - c.alpha) 0 / max c.betaEff (1 / 2 ^ 52)) + 1 / 2 ≤
      sqrt (max (1 - c'.alpha) 0 / max c'.betaEff (1 / 2 ^ 52)) + 1 / 2 :=
    add_le_add (hsqrt hratio) le_rfl
  simp only [CoherencyCoefficients.nMax, CoherencyCoefficients.roundNonneg]
  exact Int.cast_le.mpr (Int.floor_le_floor hroot)

/-- On single prompts, the largest value of identical outputs orients the measurement. -/
theorem oriented_of_identical (halign : 0 < align)
    (h : ∀ o a b : List String, a.length = o.length → b.length = o.length →
      adapterPairCg m align a b ≤ adapterPairCg m align o o) : Oriented m := by
  have hone : ∀ s : String × String, adapterPairCg m align [s.1] [s.2] = promptScore m s * align := by
    intro s
    simp [adapterPairCg]
  have hscore : ∀ (s : String × String) (o : String), promptScore m s ≤ promptScore m (o, o) := by
    intro s o
    have hcg := h [o] [s.1] [s.2] rfl rfl
    rw [hone s, hone (o, o)] at hcg
    exact le_of_mul_le_mul_right hcg halign
  cases hmodel : m.embeddingModel with
  | none =>
      rw [Oriented, hmodel]
      intro s t
      by_cases hcorpus : m.corpus = []
      · simp [constraintFingerprint, hcorpus]
      · have hlength : ∀ text, (constraintFingerprint m.externals text m.corpus).length =
            m.corpus.length := fun text => constraintFingerprint_length _ _ _
        have hne : constraintFingerprint m.externals s m.corpus ≠ [] := by
          intro hnil
          have hs := hlength s
          rw [hnil, List.length_nil] at hs
          exact hcorpus (List.length_eq_zero_iff.mp hs.symm)
        have hdistance := hscore (s, t) s
        simp only [promptScore, hmodel, List.isEmpty_iff, hcorpus, if_false,
          hammingDistance_self hne] at hdistance
        exact eq_of_hammingDistance ((hlength s).trans (hlength t).symm) hdistance
  | some model =>
      rw [Oriented, hmodel]
      by_contra hneither
      rw [not_or] at hneither
      obtain ⟨hself, hsome⟩ := hneither
      obtain ⟨o, ho⟩ := not_forall.mp hself
      obtain ⟨s, hs⟩ := not_forall.mp hsome
      have hle := hscore s o
      rw [(promptScore_model hmodel s).1 (not_not.mp hs), (promptScore_model hmodel (o, o)).2 ho]
        at hle
      exact absurd hle (not_le.mpr zero_lt_one)

end Runs

/-! ## The guarantee -/

/-- The measurement in exact arithmetic. -/
noncomputable def exactMeasurement (x : Externals) (cfg : CalibrationConfig ℝ)
    (embeddingModel : Option (EmbeddingModel ℝ)) (corpus : List ConstraintDoc) :
    Measurement ℝ where
  externals := x
  sqrt := Real.sqrt
  cfg := cfg
  embeddingModel := embeddingModel
  corpus := corpus

theorem tauAlignment_pos (tauI tauJ : ℝ) : 0 < tauAlignment Real.exp tauI tauJ :=
  Real.exp_pos _

/-- In both modes, for every corpus and every two temperatures. -/
theorem agreementHelps_iff (x : Externals) (cfg : CalibrationConfig ℝ)
    (embeddingModel : Option (EmbeddingModel ℝ)) (corpus : List ConstraintDoc) (tauI tauJ : ℝ) :
    AgreementHelps (exactMeasurement x cfg embeddingModel corpus)
        (tauAlignment Real.exp tauI tauJ) ↔
      Oriented (exactMeasurement x cfg embeddingModel corpus) := by
  have halign := tauAlignment_pos tauI tauJ
  constructor
  · intro h
    exact oriented_of_identical halign h.identical
  · intro h
    refine ⟨?_, ?_⟩
    · intro o a b ha hb
      have hscores : List.Forall₂ (fun s t => promptScore (exactMeasurement x cfg embeddingModel
          corpus) s ≤ promptScore (exactMeasurement x cfg embeddingModel corpus) t)
          (a.zip b) (o.zip o) := by
        rw [zip_self, List.forall₂_map_right_iff, List.forall₂_iff_zip]
        exact ⟨by simp [ha, hb], fun {s o'} _ => promptScore_le_self h s o'⟩
      exact adapterPairCg_mono (p := (a, b)) (q := (o, o)) halign.le (ha.trans hb.symm) rfl hscores
    · intro alpha betaBase alphaRange betaNonneg runA runB hmore
      have hmean : (calibrated (exactMeasurement x cfg embeddingModel corpus)
            (tauAlignment Real.exp tauI tauJ) alphaRange betaNonneg runA).cgMean ≤
          (calibrated (exactMeasurement x cfg embeddingModel corpus)
            (tauAlignment Real.exp tauI tauJ) alphaRange betaNonneg runB).cgMean :=
        cgMean_mono (cgSamples_mono halign.le h hmore)
      have hbeta := betaEff_anti hmean rfl rfl rfl
      exact ⟨hmean, hbeta, nMax_mono (fun _ _ hle => Real.sqrt_le_sqrt hle) hbeta rfl⟩

/-! ## The fingerprints of one hard constraint -/

/-- The output has to name the token. -/
def jwtDoc : ConstraintDoc where
  id := "auth-jwt"
  sourceFile := "constraints.yaml"
  description := "must use jwt"
  severity := .hard (1 / 2)
  predicate := .vocabularyPresence .anyOf ["jwt"]
  remediationHint := none
  domains := []
  mandatoryForTags := []
  relatedTo := []
  binaryChecks := []
  version := 1
  repairProvenance := none
  passCriteria := none

/-- Two adapters that agree come out below two that disagree. -/
theorem agreement_inverted :
    ¬ AgreementHelps (exactMeasurement asciiExternals ⟨7 / 10, 17 / 20⟩ none [jwtDoc])
      (tauAlignment Real.exp (1 / 2) (1 / 2)) := by
  intro h
  have horiented := oriented_of_identical (tauAlignment_pos _ _) h.identical
  have hsame := horiented "jwt authentication token" "session cookie storage"
  exact absurd hsame (by decide +kernel)

end ControlPlane.Guarantees.AgreementCeiling
