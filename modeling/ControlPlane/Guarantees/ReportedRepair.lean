import ControlPlane.Source.Engine.RunOffline
import ControlPlane.Source.Engine.SharedRepair

/-!
# Reported repairs

A `Repaired` outcome should name a version whose check is the accepted rewrite. After a
refused write the advisor reloads, takes any newer version for its own and reports its
own rewrite with it. Every other end is right: an accepted write stores the rewrite, and
a failed run has created nothing.
-/
namespace ControlPlane.Guarantees.ReportedRepair

open Source.Constraints Source.Config Source.Engine

variable {σ : Type} (source : VersionedConstraintSource σ) (between : Nat → σ → σ)
  (input : RepairInput) (cfg : GapK1Config) (answers : RepairAnswers) (s : σ)

/-- What is reported is what is stored, and a failed run leaves no version behind. -/
structure ReportsStored (trace : RepairTrace σ) : Prop where
  repaired : ∀ newVersion rewrite, trace.outcome = .repaired newVersion rewrite →
    ∃ stored, source.specAt trace.final input.constraintId newVersion = some stored ∧
      stored.rubric.checks[input.checkIndex]? = some rewrite
  failed : ∀ bestScore, trace.outcome = .failed bestScore →
    ∀ create ∈ trace.creates, create.2 = create.1

/-! ## Calls on the source -/

def firstLoad : Option SemanticSpec × σ :=
  source.loadLatestVersioned (between 0 s) input.constraintId

def firstWrite (spec : SemanticSpec) (rewrite : String) (bestScore : ℚ) : Option Nat × σ :=
  source.createNextVersion (between 1 (firstLoad source between input s).2) input.constraintId
    input.currentVersion (rewriteCheck spec input.checkIndex rewrite)
    (repairProvenance input answers.nowMs rewrite bestScore)

def reloaded (spec : SemanticSpec) (rewrite : String) (bestScore : ℚ) : Option SemanticSpec × σ :=
  source.loadLatestVersioned
    (between 2 (firstWrite source between input answers s spec rewrite bestScore).2)
    input.constraintId

/-- The first write is refused, and the newer version that the reload finds does not have
the accepted rewrite. -/
structure LostRace (rewrite : String) (bestScore : ℚ) (spec fresh : SemanticSpec) : Prop where
  accepted : acceptedRewrite cfg answers = .ok (rewrite, bestScore)
  load : (firstLoad source between input s).1 = some spec
  inRange : input.checkIndex < spec.rubric.checks.length
  refused : (firstWrite source between input answers s spec rewrite bestScore).1 = none
  reload : (reloaded source between input answers s spec rewrite bestScore).1 = some fresh
  newer : input.currentVersion < fresh.version
  foreign : fresh.rubric.checks[input.checkIndex]? ≠ some rewrite

/-- Every way the advisor can end. -/
inductive RepairEnd : RepairTrace σ → Prop where
  | failed {bestScore creates final} (untouched : ∀ create ∈ creates, create.2 = create.1) :
      RepairEnd ⟨.failed bestScore, creates, final⟩
  | written {newVersion rewrite creates final stored}
      (holds : source.specAt final input.constraintId newVersion = some stored)
      (check : stored.rubric.checks[input.checkIndex]? = some rewrite) :
      RepairEnd ⟨.repaired newVersion rewrite, creates, final⟩
  | superseded {rewrite bestScore spec fresh creates final}
      (accepted : acceptedRewrite cfg answers = .ok (rewrite, bestScore))
      (load : (firstLoad source between input s).1 = some spec)
      (inRange : input.checkIndex < spec.rubric.checks.length)
      (refused : (firstWrite source between input answers s spec rewrite bestScore).1 = none)
      (reload : reloaded source between input answers s spec rewrite bestScore =
        (some fresh, final))
      (newer : input.currentVersion < fresh.version) :
      RepairEnd ⟨.repaired fresh.version rewrite, creates, final⟩

/-- A spec with the rewritten rubric has the rewrite in its place. -/
theorem rewritten_check {spec stored : SemanticSpec} {i : Nat} {rewrite : String}
    (h : i < spec.rubric.checks.length)
    (rubric : stored.rubric = (rewriteCheck spec i rewrite).rubric) :
    stored.rubric.checks[i]? = some rewrite := by
  rw [rubric]
  simp [rewriteCheck, h]

variable {source between input cfg answers s}

/-- A write that succeeds leaves the rewrite under its version. -/
theorem created_check {spec : SemanticSpec} {rewrite : String} {bestScore : ℚ} {s' : σ}
    {expected newVersion : Nat} (inRange : input.checkIndex < spec.rubric.checks.length)
    (written : (source.createNextVersion s' input.constraintId expected
      (rewriteCheck spec input.checkIndex rewrite)
      (repairProvenance input answers.nowMs rewrite bestScore)).1 = some newVersion) :
    ∃ stored, source.specAt (source.createNextVersion s' input.constraintId expected
        (rewriteCheck spec input.checkIndex rewrite)
        (repairProvenance input answers.nowMs rewrite bestScore)).2
        input.constraintId newVersion = some stored ∧
      stored.rubric.checks[input.checkIndex]? = some rewrite := by
  obtain ⟨stored, hstored, hrubric⟩ := source.created (Prod.ext written rfl)
  exact ⟨stored, hstored, rewritten_check inRange hrubric⟩

theorem sharedWrite_end {rewrite : String} {bestScore : ℚ} {spec : SemanticSpec}
    (accepted : acceptedRewrite cfg answers = .ok (rewrite, bestScore))
    (load : (firstLoad source between input s).1 = some spec)
    (inRange : input.checkIndex < spec.rubric.checks.length) :
    RepairEnd source between input cfg answers s
      (sharedWrite source between input (rewriteCheck spec input.checkIndex rewrite)
        (repairProvenance input answers.nowMs rewrite bestScore) rewrite bestScore
        (firstLoad source between input s).2) := by
  unfold sharedWrite
  dsimp only
  split
  next version hfirst =>
    obtain ⟨stored, hholds, hcheck⟩ := created_check inRange hfirst
    exact .written hholds hcheck
  next hfirst =>
    have hrefused := source.refused (Prod.ext hfirst rfl)
    split
    next hreload =>
      refine .failed ?_
      intro create hcreate
      rw [List.mem_singleton.mp hcreate]
      exact hrefused
    next fresh hreload =>
      by_cases hnewer : input.currentVersion < fresh.version
      · rw [if_pos hnewer]
        exact .superseded accepted load inRange hfirst (Prod.ext hreload rfl) hnewer
      · rw [if_neg hnewer]
        split
        next version hsecond =>
          obtain ⟨stored, hholds, hcheck⟩ := created_check inRange hsecond
          exact .written hholds hcheck
        next hsecond =>
          have hrefused' := source.refused (Prod.ext hsecond rfl)
          refine .failed ?_
          intro create hcreate
          rcases List.mem_cons.mp hcreate with rfl | hlast
          · exact hrefused
          · rw [List.mem_singleton.mp hlast]
            exact hrefused'

theorem sharedRun_end :
    RepairEnd source between input cfg answers s (sharedRun source between input cfg answers s) := by
  unfold sharedRun
  cases haccepted : acceptedRewrite cfg answers with
  | error bestScore => exact .failed (by simp)
  | ok chosen =>
      obtain ⟨rewrite, bestScore⟩ := chosen
      dsimp only
      split
      next hload => exact .failed (by simp)
      next spec hload =>
        by_cases hindex : input.checkIndex < spec.rubric.checks.length
        · rw [if_pos hindex]
          exact sharedWrite_end haccepted hload hindex
        · rw [if_neg hindex]
          exact .failed (by simp)

/-- A lost race is reported as a repair, in the state in which the newer version was read. -/
theorem LostRace.sharedRun {rewrite : String} {bestScore : ℚ} {spec fresh : SemanticSpec}
    (lost : LostRace source between input cfg answers s rewrite bestScore spec fresh) :
    (sharedRun source between input cfg answers s).outcome = .repaired fresh.version rewrite ∧
      (sharedRun source between input cfg answers s).final =
        (reloaded source between input answers s spec rewrite bestScore).2 := by
  have hload := lost.load
  have hrefused := lost.refused
  have hreload := lost.reload
  unfold firstLoad at hload
  unfold firstWrite firstLoad at hrefused
  unfold reloaded firstWrite firstLoad at hreload ⊢
  unfold Source.Engine.sharedRun sharedWrite
  simp only [lost.accepted, hload, lost.inRange, ↓reduceIte, hrefused, hreload, lost.newer,
    and_self]

section Example

def racedSource : VersionedSource := .newInMemory [minimalSpec sessionDoc]

def racedInput : RepairInput :=
  repairInput "task" sessionDoc 0 ["no token named", "token missing"]

def racedAnswers : RepairAnswers := ⟨some "names the signed token", fun _ => 1, 0⟩

/-- Another task repairs the same check in front of the first write. -/
def otherRepair (n : Nat) (source : VersionedSource) : VersionedSource :=
  if n = 1 then
    (source.create "C-SESSION" 1 (rewriteCheck (minimalSpec sessionDoc) 0 "carries a bearer token")
      (repairProvenance racedInput 0 "carries a bearer token" 1)).2
  else source

end Example

end ControlPlane.Guarantees.ReportedRepair
