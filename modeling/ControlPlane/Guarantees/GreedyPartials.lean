import ControlPlane.Source.Engine.Grafting
import ControlPlane.Source.MapeK.Partials

/-!
# The selected partials are a greedy cover

`select_orthogonal_partials` takes the candidate with the most passed checks first, and
then each time one that adds as many checks as any other. It stops before its limit only
when all that the candidates pass is covered, so that a larger limit only adds at the end.
-/
namespace ControlPlane.Guarantees.GreedyPartials

open Lib Source.MapeK

/-! ## Statement -/

/-- What the selection of at most `maxK` of the candidates returns. -/
structure GreedySelection (candidates : List PartialPass) (maxK : Nat)
    (picks : List PartialPass) : Prop where
  bounded : picks.length ≤ maxK
  distinct : picks.Nodup
  selected : ∀ p ∈ picks, p ∈ candidates
  first : ∀ p, picks.head? = some p →
    ∀ q ∈ candidates, q.passedCheckIndices.card ≤ p.passedCheckIndices.card
  later : ∀ before p after, picks = before ++ p :: after →
    0 < newCoverage (coveredChecks before) p ∧
      ∀ q ∈ candidates, newCoverage (coveredChecks before) q ≤ newCoverage (coveredChecks before) p
  exhausted : picks.length < maxK →
    ∀ q ∈ candidates, q.passedCheckIndices ⊆ coveredChecks picks

/-! ## The guarantee -/

theorem newCoverage_empty (p : PartialPass) :
    newCoverage ∅ p = p.passedCheckIndices.card := by
  rw [newCoverage, Finset.sdiff_empty]

theorem greedySelection_of_run {candidates picks : List PartialPass} {maxK : Nat}
    (hrun : GreedyRun PartialPass.passedCheckIndices candidates ∅ picks)
    (hbound : picks.length ≤ maxK)
    (hexhausted : picks.length < maxK →
      ∀ q ∈ candidates, q.passedCheckIndices ⊆ coveredChecks picks) :
    GreedySelection candidates maxK picks where
  bounded := hbound
  distinct := hrun.nodup
  selected := hrun.subset_pool
  first p hp q hq := by
    obtain ⟨after, rfl⟩ := List.head?_eq_some_iff.mp hp
    have hbest := (GreedyRun.at_item [] hrun).1 q hq
    rwa [← newCoverage_empty q, ← newCoverage_empty p]
  later before p after hsplit := by
    subst hsplit
    obtain ⟨hbest, hadds⟩ := hrun.at_item before
    exact ⟨hadds, hbest⟩
  exhausted := hexhausted

/-- For every list of pruned events, checks, offsets and limit: the selection is a greedy
cover, and the selection for one more begins with it. -/
theorem select_greedy (allPruned : List BranchPrunedEvent) (checks : List String)
    (offsets : List (String × Nat × Nat)) (maxK maxChars : Nat) :
    GreedySelection (partialCandidates allPruned checks offsets maxChars) maxK
        (selectOrthogonalPartials allPruned checks offsets maxK maxChars) ∧
      selectOrthogonalPartials allPruned checks offsets maxK maxChars <+:
        selectOrthogonalPartials allPruned checks offsets (maxK + 1) maxChars := by
  have hstart := selecting_start allPruned checks offsets maxChars
  rw [selectOrthogonalPartials_eq, selectOrthogonalPartials_eq]
  refine ⟨greedySelection_of_run (selectLoop_greedy maxK hstart) (selectLoop_length_le _ _ _) ?_,
    selectLoop_prefix _ _ _⟩
  exact selectLoop_exhausted maxK hstart

end ControlPlane.Guarantees.GreedyPartials

/-!
## Redundancy is read off the base alone

`graft_is_redundant` compares the checks that the base passes with all checks that the
candidate was tried on. Over one check list these are all checks, so the answer is the same
for every candidate: it says whether the base passes more than the given share of them.
-/
namespace ControlPlane.Guarantees.GraftRedundancy

open Source.MapeK Source.Engine

/-! ## Statement -/

/-- `candidate'` passes the check `i` on top of those that `candidate` passes. -/
def PassesToo (i : Nat) (candidate candidate' : PartialPass) : Prop :=
  candidate'.passedCheckIndices = insert i candidate.passedCheckIndices

structure RedundancyMeansOverlap (checks : List String) (base candidate : PartialPass)
    (threshold : ℚ) : Prop where
  overlap : graftIsRedundant base candidate threshold = true →
    (base.passedCheckIndices ∩ candidate.passedCheckIndices).Nonempty
  disjoint : Disjoint base.passedCheckIndices candidate.passedCheckIndices →
    graftIsRedundant base candidate threshold = false
  monotone : ∀ candidate', OverChecks checks candidate' → ∀ i ∉ base.passedCheckIndices,
    PassesToo i candidate candidate' → graftIsRedundant base candidate threshold = false →
    graftIsRedundant base candidate' threshold = false

/-! ## The guarantee -/

section Guarantee

variable {checks : List String} {base candidate : PartialPass}

/-- What the candidate passes does not enter. -/
theorem graftIsRedundant_iff (hbase : OverChecks checks base)
    (hcandidate : OverChecks checks candidate) (threshold : ℚ) :
    graftIsRedundant base candidate threshold = true ↔
      threshold * checks.length < base.passedCheckIndices.card := by
  have hunion : base.passedCheckIndices ∪ Finset.range checks.length =
      Finset.range checks.length := Finset.union_eq_right.mpr hbase.passed_subset
  have hinter : base.passedCheckIndices ∩ Finset.range checks.length =
      base.passedCheckIndices := Finset.inter_eq_left.mpr hbase.passed_subset
  unfold graftIsRedundant
  dsimp only
  rw [hcandidate.indices, hunion, hinter, Finset.card_range]
  rcases Nat.eq_zero_or_pos checks.length with hzero | hpos
  · have hnone : base.passedCheckIndices = ∅ := by
      have hsub := hbase.passed_subset
      rwa [hzero, Finset.range_zero, Finset.subset_empty] at hsub
    simp [hzero, hnone]
  · rw [if_neg (Nat.ne_of_gt hpos), decide_eq_true_eq]
    exact lt_div_iff₀ (Nat.cast_pos.mpr hpos)

/-- For every base, candidate and threshold: redundancy means overlap exactly when the base
passes no more than this share of the checks, or the candidate does overlap it. -/
theorem redundancy_means_overlap_iff (hbase : OverChecks checks base)
    (hcandidate : OverChecks checks candidate) (threshold : ℚ) :
    RedundancyMeansOverlap checks base candidate threshold ↔
      (base.passedCheckIndices.card : ℚ) ≤ threshold * checks.length ∨
        (base.passedCheckIndices ∩ candidate.passedCheckIndices).Nonempty := by
  have hredundant := graftIsRedundant_iff hbase hcandidate threshold
  constructor
  · intro h
    by_cases hshare : (base.passedCheckIndices.card : ℚ) ≤ threshold * checks.length
    · exact Or.inl hshare
    · exact Or.inr (h.overlap (hredundant.mpr (not_le.mp hshare)))
  · intro h
    refine ⟨fun hred => ?_, fun hdisjoint => ?_, fun candidate' hchecks i _ _ hkept => ?_⟩
    · exact h.resolve_left (not_le.mpr (hredundant.mp hred))
    · rw [← Bool.not_eq_true, hredundant, not_lt]
      refine h.resolve_right fun hoverlap => ?_
      exact hoverlap.ne_empty (Finset.disjoint_iff_inter_eq_empty.mp hdisjoint)
    · rw [← Bool.not_eq_true, graftIsRedundant_iff hbase hchecks threshold, ← hredundant,
        hkept]
      exact Bool.false_ne_true

/-- The results of four checks. -/
def onFour (a b c d : Bool) : PartialPass :=
  ⟨"draft", [(0, "a", a), (1, "b", b), (2, "c", c), (3, "d", d)], 0⟩

/-- A base that passes two of the four checks. -/
theorem half_means_overlap :
    RedundancyMeansOverlap ["a", "b", "c", "d"] (onFour true true false false)
      (onFour false false true true) (3 / 5) :=
  (redundancy_means_overlap_iff (by unfold OverChecks; decide) (by unfold OverChecks; decide)
    (3 / 5)).mpr (Or.inl (by decide +kernel))

/-! ## The candidate that passes what is missing -/

/-- The base fails one check, the candidate passes this one, and is skipped. -/
theorem missing_check_is_redundant :
    ¬ RedundancyMeansOverlap ["a", "b", "c", "d"] (onFour true true true false)
      (onFour false false false true) (3 / 5) := by
  intro h
  exact absurd (h.disjoint (by decide)) (by decide +kernel)

end Guarantee

end ControlPlane.Guarantees.GraftRedundancy
