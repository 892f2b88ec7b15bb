import ControlPlane.Lib.Sequences
import ControlPlane.Source.MapeK.Controller
import ControlPlane.Source.MapeK.Partials

/-!
# Isolation evidence starts from the widest proposal

The integration wave looks for isolation evidence in the two partials that the greedy
selection returns. The first of them is the widest pruned proposal, so a pair that passes
all checks is seen exactly when some proposal passes what the widest one fails.
-/
namespace ControlPlane.Guarantees.IsolationEvidence

open Lib Source.MapeK Source.MapeK.MapeKController

/-! ## Statement -/

section Statement

variable (history : List BranchPrunedEvent) (checks : List String)
  (offsets : List (String × Nat × Nat)) (maxChars : Nat)

/-- Some two pruned proposals jointly pass all checks. -/
def JointlyComplete : Prop :=
  ∃ e₁ ∈ history, ∃ e₂ ∈ history, passedChecks checks offsets e₁ ∪ passedChecks checks offsets e₂ =
    Finset.range checks.length

/-- Some pruned proposal passes all checks. -/
def CompleteAlone : Prop :=
  ∃ e ∈ history, passedChecks checks offsets e = Finset.range checks.length

/-- The isolation trigger of the integration wave. -/
def isolationTrigger : Bool :=
  hasIsolationEvidence (selectOrthogonalPartials history checks offsets 2 maxChars) checks.length

def FindsEvidence : Prop :=
  JointlyComplete history checks offsets → ¬ CompleteAlone history checks offsets →
    isolationTrigger history checks offsets maxChars = true

/-- The last of the pruned proposals that pass the most checks. -/
def widest : Option BranchPrunedEvent :=
  (history.filter fun e => history.all fun e' =>
    decide ((passedChecks checks offsets e').card ≤ (passedChecks checks offsets e).card)).getLast?

/-- Some pruned proposal passes every check that the widest one fails. -/
def CompletesWidest : Prop :=
  ∃ w, widest history checks offsets = some w ∧ ∃ e ∈ history,
    passedChecks checks offsets w ∪ passedChecks checks offsets e = Finset.range checks.length

end Statement

/-! ## The guarantee -/

section Guarantee

variable {history : List BranchPrunedEvent} {checks : List String}
  {offsets : List (String × Nat × Nat)} {maxChars : Nat}

/-- The trigger is the controller's. -/
theorem integrationTrigger_of_isolation (c : MapeKController) (retryCount : Nat)
    (henabled : c.cfg.integrationWave.enabled = true)
    (h : isolationTrigger c.allPruned c.binaryChecks c.constraintCheckOffsets
      (partialMaxChars c.cfg.modelMaxTokens 2 c.cfg.partialPassOverheadFactor) = true) :
    (integrationTrigger c retryCount).isSome = true := by
  unfold isolationTrigger at h
  unfold integrationTrigger
  simp [henabled, h]

theorem outdone_empty_iff {p q : PartialPass}
    (hp : p ∈ partialCandidates history checks offsets maxChars)
    (hq : q ∈ partialCandidates history checks offsets maxChars) :
    Outdone ∅ p q ↔ p.passedCheckIndices.card ≤ q.passedCheckIndices.card := by
  obtain ⟨e, -, he⟩ := mem_partialCandidates.mp hp
  obtain ⟨e', -, he'⟩ := mem_partialCandidates.mp hq
  have hscore := (partialPass_of_event he).2
  have hscore' := (partialPass_of_event he').2
  rw [← (partialPass_of_event he).1] at hscore
  rw [← (partialPass_of_event he').1] at hscore'
  unfold Outdone newCoverage
  rw [Finset.sdiff_empty, Finset.sdiff_empty]
  constructor
  · intro h
    omega
  · intro h
    rcases Nat.lt_or_eq_of_le h with hlt | heq
    · exact Or.inl hlt
    · exact Or.inr ⟨heq, by rw [hscore, hscore', heq]⟩

/-- The first partial is that of the widest proposal. -/
theorem widest_of_lastBest {i : Nat} {best : PartialPass}
    (h : LastBest ∅ (partialCandidates history checks offsets maxChars) i best) :
    ∃ w ∈ history, widest history checks offsets = some w ∧
      passedChecks checks offsets w = best.passedCheckIndices := by
  have hcandidates := partialCandidates_eq history checks offsets maxChars
  have hsplit := hcandidates.symm.trans h.split
  obtain ⟨front, rest, hhistory, -, hrest⟩ := List.filterMap_eq_append_iff.mp hsplit
  obtain ⟨skipped, w, back, rfl, hskipped, hw, hback⟩ := List.filterMap_eq_cons_iff.mp hrest
  have hbest := (partialPass_of_event hw).1
  have hwmem : w ∈ history := by simp [hhistory]
  have hpositive : 0 < (passedChecks checks offsets w).card := by
    refine Finset.card_pos.mpr (Finset.nonempty_iff_ne_empty.mpr fun hempty => ?_)
    rw [partialPass_none_iff.mpr hempty] at hw
    cases hw
  have hmost : ∀ e ∈ history,
      (passedChecks checks offsets e).card ≤ (passedChecks checks offsets w).card := by
    intro e he
    cases hpartial : partialPassFromEvent e checks offsets maxChars with
    | none =>
        rw [partialPass_none_iff.mp hpartial, Finset.card_empty]
        exact Nat.zero_le _
    | some p =>
        have hp := mem_partialCandidates.mpr ⟨e, he, hpartial⟩
        rw [← (partialPass_of_event hpartial).1, ← hbest]
        exact (outdone_empty_iff hp h.mem).mp (h.outdoes p hp)
  have hless : ∀ e ∈ back,
      (passedChecks checks offsets e).card < (passedChecks checks offsets w).card := by
    intro e he
    cases hpartial : partialPassFromEvent e checks offsets maxChars with
    | none =>
        rw [partialPass_none_iff.mp hpartial, Finset.card_empty]
        exact hpositive
    | some p =>
        have hmem : e ∈ history := by simp [hhistory, he]
        have hp := mem_partialCandidates.mpr ⟨e, hmem, hpartial⟩
        have hbehind := h.behind p (hback ▸ List.mem_filterMap.mpr ⟨e, he, hpartial⟩)
        rw [outdone_empty_iff h.mem hp, Nat.not_le] at hbehind
        rwa [← (partialPass_of_event hpartial).1, ← hbest]
  refine ⟨w, hwmem, ?_, hbest.symm⟩
  have hnone : back.filter (fun e => history.all fun e' =>
      decide ((passedChecks checks offsets e').card ≤ (passedChecks checks offsets e).card)) =
      [] := by
    refine List.filter_eq_nil_iff.mpr fun e he hall => ?_
    have hw' := of_decide_eq_true (List.all_eq_true.mp hall w hwmem)
    exact absurd (hless e he) (Nat.not_lt.mpr hw')
  have hself : (history.all fun e' => decide ((passedChecks checks offsets e').card ≤
      (passedChecks checks offsets w).card)) = true :=
    List.all_eq_true.mpr fun e he => decide_eq_true (hmost e he)
  exact getLast?_filter_split (front ++ skipped) back (by simp [hhistory]) hself hnone

theorem candidate_of_passed (maxChars : Nat) {e : BranchPrunedEvent} (he : e ∈ history)
    (hpassed : passedChecks checks offsets e ≠ ∅) :
    ∃ p ∈ partialCandidates history checks offsets maxChars,
      p.passedCheckIndices = passedChecks checks offsets e := by
  obtain ⟨p, hp⟩ : ∃ p, partialPassFromEvent e checks offsets maxChars = some p :=
    Option.ne_none_iff_exists'.mp fun h => hpassed (partialPass_none_iff.mp h)
  exact ⟨p, mem_partialCandidates.mpr ⟨e, he, hp⟩, (partialPass_of_event hp).1⟩

theorem candidate_subset {p : PartialPass}
    (hp : p ∈ partialCandidates history checks offsets maxChars) :
    p.passedCheckIndices ⊆ Finset.range checks.length := by
  obtain ⟨e, -, he⟩ := mem_partialCandidates.mp hp
  rw [(partialPass_of_event he).1]
  exact passedChecks_subset checks offsets e

theorem candidate_incomplete (halone : ¬ CompleteAlone history checks offsets) {p : PartialPass}
    (hp : p ∈ partialCandidates history checks offsets maxChars) :
    ¬ Finset.range checks.length ⊆ p.passedCheckIndices := by
  intro hall
  obtain ⟨e, hmem, he⟩ := mem_partialCandidates.mp hp
  rw [(partialPass_of_event he).1] at hall
  exact halone ⟨e, hmem, (passedChecks_subset checks offsets e).antisymm hall⟩

/-- The evidence, when no candidate is complete: two partials that are jointly. -/
theorem hasIsolationEvidence_iff {picks : List PartialPass}
    (hpicks : ∀ p ∈ picks, p.passedCheckIndices ⊆ Finset.range checks.length ∧
      ¬ Finset.range checks.length ⊆ p.passedCheckIndices) :
    hasIsolationEvidence picks checks.length = true ↔
      2 ≤ picks.length ∧ 0 < checks.length ∧ Finset.range checks.length ⊆ coveredChecks picks := by
  have hnone : picks.any (fun p => decide (p.passedCheckIndices.card = checks.length)) = false := by
    refine List.any_eq_false.mpr fun p hp hcard => ?_
    obtain ⟨hsub, hincomplete⟩ := hpicks p hp
    refine hincomplete (Finset.eq_of_subset_of_card_le hsub ?_).ge
    rw [Finset.card_range, of_decide_eq_true hcard]
  have hsub : coveredChecks picks ⊆ Finset.range checks.length := by
    intro i hi
    obtain ⟨p, hp, hpi⟩ := (mem_coverFrom.mp hi).resolve_left (Finset.notMem_empty i)
    exact (hpicks p hp).1 hpi
  have hcard : (coveredChecks picks).card = checks.length ↔
      Finset.range checks.length ⊆ coveredChecks picks := by
    constructor
    · intro h
      refine (Finset.eq_of_subset_of_card_le hsub ?_).ge
      rw [Finset.card_range, h]
    · intro h
      rw [hsub.antisymm h, Finset.card_range]
  unfold hasIsolationEvidence
  rw [hnone, Bool.not_false, Bool.and_true, Bool.and_eq_true, Bool.and_eq_true,
    decide_eq_true_eq, decide_eq_true_eq, decide_eq_true_eq, and_assoc]
  exact and_congr_right fun _ => and_congr_right fun _ => hcard

/-- The partials that are selected when there is a candidate. -/
theorem select_two {i : Nat} {best : PartialPass}
    (hbest : bestCandidate ∅ (partialCandidates history checks offsets maxChars) 0 =
      some (i, best)) :
    ∃ rest, selectOrthogonalPartials history checks offsets 2 maxChars = best :: rest ∧
      rest.length ≤ 1 := by
  refine ⟨_, ?_, selectLoop_length_le 1 (∅ ∪ best.passedCheckIndices)
    ((partialCandidates history checks offsets maxChars).eraseIdx i)⟩
  rw [selectOrthogonalPartials_eq, selectLoop, hbest]
  simp

/-- The second partial completes the first one as soon as some candidate does. -/
theorem isolation_of_completing (hchecks : 0 < checks.length)
    (halone : ¬ CompleteAlone history checks offsets) {i : Nat} {best q : PartialPass}
    (hbest : bestCandidate ∅ (partialCandidates history checks offsets maxChars) 0 =
      some (i, best))
    (hq : q ∈ partialCandidates history checks offsets maxChars)
    (hcomplete : Finset.range checks.length ⊆ best.passedCheckIndices ∪ q.passedCheckIndices) :
    isolationTrigger history checks offsets maxChars = true := by
  obtain ⟨rest, hpicks, hlength⟩ := select_two hbest
  have hstart := selecting_start history checks offsets maxChars
  have hrun := selectLoop_greedy 2 hstart
  rw [← selectOrthogonalPartials_eq, hpicks] at hrun
  have hpool := hrun.subset_pool
  have hfirst : coverFrom PartialPass.passedCheckIndices ∅ [best] = best.passedCheckIndices :=
    Finset.empty_union _
  unfold isolationTrigger
  rw [hpicks, hasIsolationEvidence_iff fun p hp =>
    ⟨candidate_subset (hpool p hp), candidate_incomplete halone (hpool p hp)⟩]
  match rest, hlength with
  | [], _ =>
      -- a single partial would cover all that `q` passes
      have hshort := selectLoop_exhausted 2 hstart
      rw [← selectOrthogonalPartials_eq, hpicks] at hshort
      have hsub := hshort (by simp) q hq
      rw [hfirst] at hsub
      have hbestMem := hpool best (List.mem_cons_self ..)
      exact absurd (hcomplete.trans (Finset.union_subset (Finset.Subset.refl _) hsub))
        (candidate_incomplete halone hbestMem)
  | [b], _ =>
      have hsecond := GreedyRun.at_item [best] hrun
      rw [hfirst] at hsecond
      refine ⟨by simp, hchecks, ?_⟩
      have hall := completes_of_gain_le (candidate_subset (hpool b (by simp))) hcomplete
        (hsecond.1 q hq)
      rwa [← hfirst] at hall

/-- What the trigger has seen. -/
theorem completing_of_isolation (halone : ¬ CompleteAlone history checks offsets) {i : Nat}
    {best : PartialPass}
    (hbest : bestCandidate ∅ (partialCandidates history checks offsets maxChars) 0 =
      some (i, best))
    (htrigger : isolationTrigger history checks offsets maxChars = true) :
    ∃ b ∈ partialCandidates history checks offsets maxChars,
      Finset.range checks.length ⊆ best.passedCheckIndices ∪ b.passedCheckIndices := by
  obtain ⟨rest, hpicks, hlength⟩ := select_two hbest
  have hrun := selectLoop_greedy 2 (selecting_start history checks offsets maxChars)
  rw [← selectOrthogonalPartials_eq, hpicks] at hrun
  have hpool := hrun.subset_pool
  unfold isolationTrigger at htrigger
  rw [hpicks, hasIsolationEvidence_iff fun p hp =>
    ⟨candidate_subset (hpool p hp), candidate_incomplete halone (hpool p hp)⟩] at htrigger
  obtain ⟨htwo, -, hcovered⟩ := htrigger
  match rest, hlength with
  | [], _ => exact absurd htwo (by simp)
  | [b], _ =>
      have hunion : coveredChecks [best, b] = best.passedCheckIndices ∪ b.passedCheckIndices := by
        show (∅ ∪ best.passedCheckIndices) ∪ b.passedCheckIndices = _
        rw [Finset.empty_union]
      exact ⟨b, hpool b (by simp), hunion ▸ hcovered⟩

/-- A proposal whose partner passes everything it fails is not the empty one. -/
theorem passed_ne_empty (halone : ¬ CompleteAlone history checks offsets)
    {e e' : BranchPrunedEvent} (he' : e' ∈ history)
    (hboth : passedChecks checks offsets e' ∪ passedChecks checks offsets e =
      Finset.range checks.length) : passedChecks checks offsets e ≠ ∅ := by
  intro hempty
  rw [hempty, Finset.union_empty] at hboth
  exact halone ⟨e', he', hboth⟩

theorem checks_of_incomplete (halone : ¬ CompleteAlone history checks offsets)
    {e : BranchPrunedEvent} (he : e ∈ history) : 0 < checks.length := by
  by_contra hnone
  have hzero : Finset.range checks.length = ∅ := by simpa using hnone
  have hempty := passedChecks_subset checks offsets e
  rw [hzero, Finset.subset_empty] at hempty
  exact halone ⟨e, he, hempty.trans hzero.symm⟩

/-- With a pair that passes all checks and no proposal that does so alone. -/
theorem isolationTrigger_iff (hjoint : JointlyComplete history checks offsets)
    (halone : ¬ CompleteAlone history checks offsets) :
    isolationTrigger history checks offsets maxChars = true ↔
      CompletesWidest history checks offsets := by
  obtain ⟨e₁, he₁, e₂, he₂, hunion⟩ := hjoint
  obtain ⟨q₂, hq₂, -⟩ := candidate_of_passed maxChars he₂
    (passed_ne_empty halone he₁ hunion)
  cases hfound : bestCandidate ∅ (partialCandidates history checks offsets maxChars) 0 with
  | none =>
      rw [bestCandidate_eq_none_iff.mp hfound] at hq₂
      cases hq₂
  | some found =>
      obtain ⟨i, best⟩ := found
      obtain ⟨w, hw, hwidest, hbest⟩ := widest_of_lastBest (bestCandidate_some hfound)
      constructor
      · intro htrigger
        obtain ⟨b, hb, hcovered⟩ := completing_of_isolation halone hfound htrigger
        obtain ⟨e, he, hbe⟩ := mem_partialCandidates.mp hb
        rw [← hbest, (partialPass_of_event hbe).1] at hcovered
        exact ⟨w, hwidest, e, he, (Finset.union_subset (passedChecks_subset checks offsets w)
          (passedChecks_subset checks offsets e)).antisymm hcovered⟩
      · intro hcompletes
        obtain ⟨w', hw', e, he, hboth⟩ := hcompletes
        obtain rfl : w = w' := Option.some.inj (hwidest.symm.trans hw')
        obtain ⟨q, hq, hqe⟩ := candidate_of_passed maxChars he
          (passed_ne_empty halone hw hboth)
        refine isolation_of_completing (checks_of_incomplete halone hw) halone hfound hq ?_
        rw [← hbest, hqe, hboth]

/-- For every history, check list and offsets: the evidence is found exactly when some
proposal passes what the widest one fails. -/
theorem findsEvidence_iff (history : List BranchPrunedEvent) (checks : List String)
    (offsets : List (String × Nat × Nat)) (maxChars : Nat) :
    FindsEvidence history checks offsets maxChars ↔
      (JointlyComplete history checks offsets →
        CompleteAlone history checks offsets ∨ CompletesWidest history checks offsets) := by
  constructor
  · intro hfinds hjoint
    by_cases halone : CompleteAlone history checks offsets
    · exact Or.inl halone
    · exact Or.inr ((isolationTrigger_iff hjoint halone).mp (hfinds hjoint halone))
  · intro hcondition hjoint halone
    exact (isolationTrigger_iff hjoint halone).mpr ((hcondition hjoint).resolve_left halone)

end Guarantee

/-! ## A pair that is not seen -/

/-- A proposal that was pruned with these verdicts on the checks of one constraint. -/
def prunedWith (verdicts : List Bool) : BranchPrunedEvent :=
  ⟨"", "", "draft", [⟨"C-1", 0, .hard, none, "", none, verdicts, none, none⟩], 0⟩

/-- The first two pass the four checks between them; the last one is as wide as they are
and passes one check of each. -/
theorem overlapping_is_taken :
    ¬ FindsEvidence [prunedWith [true, true, false, false], prunedWith [false, false, true, true],
      prunedWith [false, true, true, false]] ["a", "b", "c", "d"] [("C-1", 0, 4)] 100 := by
  intro hfinds
  refine absurd (hfinds ⟨_, List.mem_cons_self .., prunedWith [false, false, true, true],
    by simp, by decide⟩ ?_) (by decide +kernel)
  unfold CompleteAlone
  decide

end ControlPlane.Guarantees.IsolationEvidence
