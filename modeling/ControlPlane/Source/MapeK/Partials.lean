import ControlPlane.Lib.GreedyCover
import ControlPlane.Source.MapeK.Types
import Mathlib.Data.Finset.Card

/-!
# Partial passes of pruned proposals

Embeds `partial_max_chars`, `truncate_proposal`, `partial_pass_from_event` and
`select_orthogonal_partials` of `crates/h2ai-autonomic/src/repair.rs`: what a
pruned proposal still passed, and the greedy choice of proposals for the
integration trigger and for the terminal synthesis wave.
-/
namespace ControlPlane.Source.MapeK

open Verification Constraints

/-- Flat offsets of the documents that have binary checks. -/
def checkOffsets : Nat → List ConstraintDoc → List (String × Nat × Nat)
  | _, [] => []
  | start, doc :: rest =>
      let count := doc.binaryChecks.length
      if 0 < count then (doc.id, start, count) :: checkOffsets (start + count) rest
      else checkOffsets start rest

/-- `partial_max_chars`, with four characters a token. -/
def partialMaxChars (modelMaxTokens maxK : Nat) (overheadFactor : ℚ) : Nat :=
  if (maxK : ℚ) + overheadFactor = 0 ∧ 0 < modelMaxTokens then 2 ^ 64 - 1
  else max ⌊(modelMaxTokens : ℚ) * 4 / (maxK + overheadFactor)⌋₊ 32

/-- The text before the last newline (`rfind`). -/
def beforeLastNewline (text : List Char) : Option (List Char) :=
  match Text.splitAtFirst '\n' text.reverse with
  | some (_, reversedHead) => some reversedHead.reverse
  | none => none

/-- `truncate_proposal`: cut at a newline past the halfway mark when there is one. -/
def truncateProposal (text : String) (maxChars : Nat) : String :=
  let chars := text.toList
  if chars.length ≤ maxChars then text
  else
    let head := chars.take maxChars
    let kept := match beforeLastNewline head with
      | some before =>
          if maxChars / 2 < (String.ofList before).utf8ByteSize then before else head
      | none => head
    String.ofList kept ++ "\n[... truncated at " ++ toString chars.length ++
      " chars; full text omitted to preserve context budget ...]"

structure PartialPass where
  proposalText : String
  checkResults : List (Nat × String × Bool)
  score : ℚ
  deriving DecidableEq, Repr

def PartialPass.passedCount (p : PartialPass) : Nat :=
  (p.checkResults.filter fun r => r.2.2).length

def PartialPass.passedCheckIndices (p : PartialPass) : Finset Nat :=
  ((p.checkResults.filter fun r => r.2.2).map Prod.fst).toFinset

/-- The verdict on one flat check index. A later violation of a constraint replaces
an earlier one; without verdicts the score tells how many checks passed. -/
def checkPassed (violations : List ConstraintViolation) (offsets : List (String × Nat × Nat))
    (globalIdx : Nat) : Bool :=
  match offsets.find? fun o => decide (o.2.1 ≤ globalIdx) && decide (globalIdx < o.2.1 + o.2.2) with
  | none => true
  | some (constraintId, start, count) =>
      match violations.reverse.find? fun v => decide (v.constraintId = constraintId) with
      | none => true
      | some v =>
          if v.checkVerdicts.isEmpty then
            decide (globalIdx - start < ⌊v.score * count + 1 / 2⌋₊)
          else (v.checkVerdicts[globalIdx - start]?).getD false

/-- `partial_pass_from_event`: `none` without checks or without a passed one. -/
def partialPassFromEvent (event : BranchPrunedEvent) (checks : List String)
    (offsets : List (String × Nat × Nat)) (maxChars : Nat) : Option PartialPass :=
  let results := checks.mapIdx fun i text =>
    (i, text, checkPassed event.violatedConstraints offsets i)
  let passed := (results.filter fun r => r.2.2).length
  if passed = 0 then none
  else some ⟨truncateProposal event.rawOutput maxChars, results, (passed : ℚ) / checks.length⟩

/-- Checks a candidate adds to the covered ones. -/
def newCoverage (covered : Finset Nat) (p : PartialPass) : Nat :=
  (p.passedCheckIndices \ covered).card

/-- `max_by` on new coverage, then score: the position of the last maximum. -/
def bestCandidate (covered : Finset Nat) : List PartialPass → Nat → Option (Nat × PartialPass)
  | [], _ => none
  | p :: rest, i =>
      match bestCandidate covered rest (i + 1) with
      | none => some (i, p)
      | some (j, q) =>
          if newCoverage covered q < newCoverage covered p ∨
              (newCoverage covered p = newCoverage covered q ∧ q.score < p.score) then some (i, p)
          else some (j, q)

/-- The selection loop; `slots` is how many more may be chosen. -/
def selectLoop : Nat → Finset Nat → List PartialPass → List PartialPass
  | 0, _, _ => []
  | slots + 1, covered, candidates =>
      match bestCandidate covered candidates 0 with
      | none => []
      | some (i, best) =>
          if newCoverage covered best = 0 ∧ covered ≠ ∅ then []
          else best :: selectLoop slots (covered ∪ best.passedCheckIndices) (candidates.eraseIdx i)

/-- `select_orthogonal_partials`. -/
def selectOrthogonalPartials (allPruned : List BranchPrunedEvent) (checks : List String)
    (offsets : List (String × Nat × Nat)) (maxK maxChars : Nat) : List PartialPass :=
  if checks.isEmpty then []
  else
    selectLoop maxK ∅ ((allPruned.filterMap fun e =>
      partialPassFromEvent e checks offsets maxChars).filter fun p => decide (0 < p.passedCount))

end ControlPlane.Source.MapeK

/-!
## What the selection of partial passes takes

The loop of `select_orthogonal_partials` is a greedy run over the candidates: what has been
selected has nothing left to add, so taking it out of the candidates changes no later choice.
-/
namespace ControlPlane.Source.MapeK

open Lib Verification Constraints

/-- The candidates of `select_orthogonal_partials`. -/
def partialCandidates (allPruned : List BranchPrunedEvent) (checks : List String)
    (offsets : List (String × Nat × Nat)) (maxChars : Nat) : List PartialPass :=
  (allPruned.filterMap fun e => partialPassFromEvent e checks offsets maxChars).filter fun p =>
    decide (0 < p.passedCount)

/-- The checks that the selected partials pass. -/
abbrev coveredChecks (picks : List PartialPass) : Finset Nat :=
  coverFrom PartialPass.passedCheckIndices ∅ picks

theorem newCoverage_eq_gain (covered : Finset Nat) (p : PartialPass) :
    newCoverage covered p = gain PartialPass.passedCheckIndices covered p := rfl

/-! ## The best candidate -/

/-- `max_by` moves on from a candidate to a later one. -/
def Outdone (covered : Finset Nat) (p q : PartialPass) : Prop :=
  newCoverage covered p < newCoverage covered q ∨
    (newCoverage covered p = newCoverage covered q ∧ p.score ≤ q.score)

section Outdone

variable {covered : Finset Nat} {p q r : PartialPass}

theorem Outdone.trans (h : Outdone covered p q) (h' : Outdone covered q r) :
    Outdone covered p r := by
  unfold Outdone at *
  rcases h with h | ⟨h, hs⟩
  · rcases h' with h' | ⟨h', -⟩
    · exact Or.inl (by omega)
    · exact Or.inl (by omega)
  · rcases h' with h' | ⟨h', hs'⟩
    · exact Or.inl (by omega)
    · exact Or.inr ⟨by omega, hs.trans hs'⟩

theorem Outdone.coverage_le (h : Outdone covered p q) :
    newCoverage covered p ≤ newCoverage covered q := by
  unfold Outdone at h
  omega

/-- The test with which the head of the candidates is kept. -/
theorem not_outdone_iff : ¬ Outdone covered p q ↔
    newCoverage covered q < newCoverage covered p ∨
      (newCoverage covered p = newCoverage covered q ∧ q.score < p.score) := by
  unfold Outdone
  rw [not_or, not_and_or, not_le, Nat.not_lt]
  constructor
  · intro h
    obtain ⟨hle, hrest⟩ := h
    rcases Nat.lt_or_eq_of_le hle with hlt | heq
    · exact Or.inl hlt
    · exact Or.inr ⟨heq.symm, hrest.resolve_left (not_not.mpr heq.symm)⟩
  · intro h
    rcases h with hlt | ⟨heq, hscore⟩
    · exact ⟨hlt.le, Or.inl (Nat.ne_of_gt hlt)⟩
    · exact ⟨heq.ge, Or.inr hscore⟩

theorem Outdone.of_not (h : ¬ Outdone covered p q) : Outdone covered q p := by
  rcases not_outdone_iff.mp h with hlt | ⟨heq, hscore⟩
  · exact Or.inl hlt
  · exact Or.inr ⟨heq.symm, hscore.le⟩

theorem Outdone.refl (covered : Finset Nat) (p : PartialPass) : Outdone covered p p :=
  Or.inr ⟨rfl, le_rfl⟩

end Outdone

/-- The best candidate is the last of those that no other one outdoes. -/
structure LastBest (covered : Finset Nat) (candidates : List PartialPass) (i : Nat)
    (best : PartialPass) : Prop where
  split : candidates = candidates.take i ++ best :: candidates.drop (i + 1)
  front : ∀ q ∈ candidates.take i, Outdone covered q best
  behind : ∀ q ∈ candidates.drop (i + 1), ¬ Outdone covered best q

theorem LastBest.mem {covered : Finset Nat} {candidates : List PartialPass} {i : Nat}
    {best : PartialPass} (h : LastBest covered candidates i best) : best ∈ candidates := by
  rw [h.split]
  simp

theorem LastBest.outdoes {covered : Finset Nat} {candidates : List PartialPass} {i : Nat}
    {best : PartialPass} (h : LastBest covered candidates i best) :
    ∀ q ∈ candidates, Outdone covered q best := by
  intro q hq
  rw [h.split] at hq
  rcases List.mem_append.mp hq with hq | hq
  · exact h.front q hq
  · rcases List.mem_cons.mp hq with rfl | hq
    · exact Outdone.refl covered q
    · exact Outdone.of_not (h.behind q hq)

theorem bestCandidate_eq_none_iff {covered : Finset Nat} {candidates : List PartialPass} {i : Nat} :
    bestCandidate covered candidates i = none ↔ candidates = [] := by
  cases candidates with
  | nil => simp [bestCandidate]
  | cons p rest =>
      rw [bestCandidate]
      split
      · simp
      · split_ifs <;> simp

theorem bestCandidate_lastBest {covered : Finset Nat} {candidates : List PartialPass} {i j : Nat}
    {best : PartialPass} (h : bestCandidate covered candidates i = some (j, best)) :
    ∃ k, j = i + k ∧ LastBest covered candidates k best := by
  induction candidates generalizing i j best with
  | nil => cases h
  | cons p rest ih =>
      rw [bestCandidate] at h
      cases htail : bestCandidate covered rest (i + 1) with
      | none =>
          obtain rfl := bestCandidate_eq_none_iff.mp htail
          rw [htail] at h
          obtain ⟨rfl, rfl⟩ : i = j ∧ p = best := by simpa using h
          exact ⟨0, rfl, ⟨rfl, by simp, by simp⟩⟩
      | some found =>
          obtain ⟨k, q⟩ := found
          obtain ⟨m, rfl, hlast⟩ := ih htail
          rw [htail] at h
          dsimp only at h
          split_ifs at h with hbetter
          · obtain ⟨rfl, rfl⟩ : i = j ∧ p = best := by simpa using h
            have hhead := not_outdone_iff.mpr hbetter
            refine ⟨0, rfl, ⟨rfl, by simp, fun r hr hout => ?_⟩⟩
            exact hhead (hout.trans (hlast.outdoes r (by simpa using hr)))
          · obtain ⟨rfl, rfl⟩ : i + 1 + m = j ∧ q = best := by simpa using h
            have hhead : Outdone covered p q := by
              by_contra hnot
              exact hbetter (not_outdone_iff.mp hnot)
            refine ⟨m + 1, by omega, ⟨?_, ?_, hlast.behind⟩⟩
            · rw [List.take_succ_cons, List.cons_append, List.drop_succ_cons]
              exact congrArg (p :: ·) hlast.split
            · rw [List.take_succ_cons]
              exact List.forall_mem_cons.mpr ⟨hhead, hlast.front⟩

theorem bestCandidate_some {covered : Finset Nat} {candidates : List PartialPass} {i : Nat}
    {best : PartialPass} (h : bestCandidate covered candidates 0 = some (i, best)) :
    LastBest covered candidates i best := by
  obtain ⟨k, rfl, hlast⟩ := bestCandidate_lastBest h
  rwa [Nat.zero_add]

/-! ## The loop -/

/-- What has been taken out of the pool has nothing to add. -/
structure SelectingFrom (pool : List PartialPass) (covered : Finset Nat)
    (candidates : List PartialPass) : Prop where
  within : ∀ q ∈ candidates, q ∈ pool
  rest : ∀ q ∈ pool, q ∈ candidates ∨ q.passedCheckIndices ⊆ covered
  nonempty : ∀ q ∈ pool, q.passedCheckIndices ≠ ∅

section Loop

variable {pool candidates : List PartialPass} {covered : Finset Nat} {i : Nat} {best : PartialPass}

theorem SelectingFrom.best_of_pool (h : SelectingFrom pool covered candidates)
    (hbest : LastBest covered candidates i best) :
    ∀ q ∈ pool, newCoverage covered q ≤ newCoverage covered best := by
  intro q hq
  rcases h.rest q hq with hq | hsub
  · exact (hbest.outdoes q hq).coverage_le
  · rw [newCoverage_eq_gain, gain_eq_zero_iff.mpr hsub]
    exact Nat.zero_le _

theorem SelectingFrom.take (h : SelectingFrom pool covered candidates)
    (hbest : LastBest covered candidates i best) :
    SelectingFrom pool (covered ∪ best.passedCheckIndices) (candidates.eraseIdx i) where
  within q hq := h.within q (List.mem_of_mem_eraseIdx hq)
  rest q hq := by
    rcases h.rest q hq with hq | hsub
    · rw [hbest.split] at hq
      rw [List.eraseIdx_eq_take_drop_succ]
      rcases List.mem_append.mp hq with hq | hq
      · exact Or.inl (List.mem_append_left _ hq)
      · rcases List.mem_cons.mp hq with rfl | hq
        · exact Or.inr Finset.subset_union_right
        · exact Or.inl (List.mem_append_right _ hq)
    · exact Or.inr (hsub.trans Finset.subset_union_left)
  nonempty := h.nonempty

/-- The loop leaves off only when nothing is left to add. -/
theorem SelectingFrom.adds (h : SelectingFrom pool covered candidates)
    (hbest : LastBest covered candidates i best)
    (hgo : ¬ (newCoverage covered best = 0 ∧ covered ≠ ∅)) : 0 < newCoverage covered best := by
  by_contra hzero
  have hnone : newCoverage covered best = 0 := by omega
  have hempty : covered = ∅ := by
    by_contra hne
    exact hgo ⟨hnone, hne⟩
  rw [newCoverage_eq_gain, gain_eq_zero_iff, hempty, Finset.subset_empty] at hnone
  exact h.nonempty best (h.within best hbest.mem) hnone

theorem selectLoop_greedy (slots : Nat) (h : SelectingFrom pool covered candidates) :
    GreedyRun PartialPass.passedCheckIndices pool covered (selectLoop slots covered candidates) := by
  induction slots generalizing covered candidates with
  | zero => exact .stop covered
  | succ slots ih =>
      rw [selectLoop]
      cases hfound : bestCandidate covered candidates 0 with
      | none => exact .stop covered
      | some found =>
          obtain ⟨i, best⟩ := found
          have hbest := bestCandidate_some hfound
          dsimp only
          split_ifs with hdone
          · exact .stop covered
          · exact .take (h.within best hbest.mem) (h.best_of_pool hbest) (h.adds hbest hdone)
              (ih (h.take hbest))

theorem selectLoop_length_le (slots : Nat) (covered : Finset Nat) (candidates : List PartialPass) :
    (selectLoop slots covered candidates).length ≤ slots := by
  induction slots generalizing covered candidates with
  | zero => exact Nat.le_refl 0
  | succ slots ih =>
      rw [selectLoop]
      split
      · exact Nat.zero_le _
      · split_ifs
        · exact Nat.zero_le _
        · exact Nat.succ_le_succ (ih _ _)

/-- One slot more only adds at the end. -/
theorem selectLoop_prefix (slots : Nat) (covered : Finset Nat) (candidates : List PartialPass) :
    selectLoop slots covered candidates <+: selectLoop (slots + 1) covered candidates := by
  induction slots generalizing covered candidates with
  | zero => exact List.nil_prefix
  | succ slots ih =>
      rw [selectLoop, selectLoop]
      split
      · exact List.prefix_refl _
      · split_ifs
        · exact List.prefix_refl _
        · exact (List.prefix_cons_inj _).mpr (ih _ _)

/-- Slots are left over only when every check that a candidate passes is covered. -/
theorem selectLoop_exhausted (slots : Nat) (h : SelectingFrom pool covered candidates)
    (hshort : (selectLoop slots covered candidates).length < slots) :
    ∀ q ∈ pool, q.passedCheckIndices ⊆
      coverFrom PartialPass.passedCheckIndices covered (selectLoop slots covered candidates) := by
  induction slots generalizing covered candidates with
  | zero => exact absurd hshort (Nat.not_lt_zero _)
  | succ slots ih =>
      rw [selectLoop] at hshort ⊢
      cases hfound : bestCandidate covered candidates 0 with
      | none =>
          obtain rfl := bestCandidate_eq_none_iff.mp hfound
          intro q hq
          exact ((h.rest q hq).resolve_left List.not_mem_nil).trans (subset_coverFrom covered _)
      | some found =>
          obtain ⟨i, best⟩ := found
          have hbest := bestCandidate_some hfound
          rw [hfound] at hshort
          dsimp only at hshort ⊢
          split_ifs at hshort ⊢ with hdone
          · intro q hq
            have hzero : newCoverage covered q = 0 := by
              have hle := h.best_of_pool hbest q hq
              omega
            exact (gain_eq_zero_iff.mp hzero).trans (subset_coverFrom covered _)
          · rw [coverFrom_cons]
            exact ih (h.take hbest) (Nat.lt_of_succ_lt_succ hshort)

end Loop

/-! ## The selection -/

section Selection

variable (allPruned : List BranchPrunedEvent) (checks : List String)
  (offsets : List (String × Nat × Nat)) (maxK maxChars : Nat)

theorem partialCandidates_nil : partialCandidates allPruned [] offsets maxChars = [] := by
  unfold partialCandidates
  rw [List.filter_eq_nil_iff]
  intro p hp
  obtain ⟨e, -, he⟩ := List.mem_filterMap.mp hp
  simp [partialPassFromEvent] at he

theorem selectOrthogonalPartials_eq :
    selectOrthogonalPartials allPruned checks offsets maxK maxChars =
      selectLoop maxK ∅ (partialCandidates allPruned checks offsets maxChars) := by
  unfold selectOrthogonalPartials
  split_ifs with hchecks
  · rw [List.isEmpty_iff.mp hchecks, partialCandidates_nil]
    cases maxK <;> rfl
  · rfl

/-- A candidate passes some check. -/
theorem passedCheckIndices_nonempty {p : PartialPass}
    (h : p ∈ partialCandidates allPruned checks offsets maxChars) : p.passedCheckIndices ≠ ∅ := by
  have hcount : 0 < p.passedCount := of_decide_eq_true (List.mem_filter.mp h).2
  intro hempty
  unfold PartialPass.passedCheckIndices at hempty
  rw [List.toFinset_eq_empty_iff, List.map_eq_nil_iff] at hempty
  unfold PartialPass.passedCount at hcount
  rw [hempty] at hcount
  exact Nat.lt_irrefl 0 hcount

theorem selecting_start :
    SelectingFrom (partialCandidates allPruned checks offsets maxChars) ∅
      (partialCandidates allPruned checks offsets maxChars) where
  within _ hq := hq
  rest _ hq := Or.inl hq
  nonempty _ hq := passedCheckIndices_nonempty allPruned checks offsets maxChars hq

end Selection

/-! ## What the pruned proposals pass -/

/-- The checks that a pruned proposal passes. -/
def passedChecks (checks : List String) (offsets : List (String × Nat × Nat))
    (e : BranchPrunedEvent) : Finset Nat :=
  (Finset.range checks.length).filter fun i => checkPassed e.violatedConstraints offsets i = true

section Events

variable {checks : List String} {offsets : List (String × Nat × Nat)} {maxChars : Nat}
  {e : BranchPrunedEvent} {p : PartialPass}

theorem passedChecks_subset (checks : List String) (offsets : List (String × Nat × Nat))
    (e : BranchPrunedEvent) : passedChecks checks offsets e ⊆ Finset.range checks.length :=
  Finset.filter_subset _ _

/-- The passed entries, by their positions. -/
theorem passed_entries (checks : List String) (passed : Nat → Bool) :
    ((checks.mapIdx fun i text => (i, text, passed i)).filter fun r => r.2.2).map Prod.fst =
      (List.range checks.length).filter passed := by
  have hindices : (checks.mapIdx fun i text => (i, text, passed i)).map Prod.fst =
      List.range checks.length := by
    apply List.ext_getElem
    · simp
    · intro i _ _
      simp
  have hflag : (checks.mapIdx fun i text => (i, text, passed i)).filter (fun r => r.2.2) =
      (checks.mapIdx fun i text => (i, text, passed i)).filter (passed ∘ Prod.fst) := by
    refine List.filter_congr fun r hr => ?_
    obtain ⟨i, _, rfl⟩ := List.mem_mapIdx.mp hr
    rfl
  rw [hflag, ← List.filter_map, hindices]

theorem passed_length (checks : List String) (passed : Nat → Bool) :
    ((checks.mapIdx fun i text => (i, text, passed i)).filter fun r => r.2.2).length =
      ((Finset.range checks.length).filter fun i => passed i = true).card := by
  rw [← List.length_map (f := Prod.fst), passed_entries,
    ← List.toFinset_card_of_nodup (List.nodup_range.filter _), List.toFinset_filter]
  congr 1
  ext i
  simp

theorem partialPass_of_event (h : partialPassFromEvent e checks offsets maxChars = some p) :
    p.passedCheckIndices = passedChecks checks offsets e ∧
      p.score = ((passedChecks checks offsets e).card : ℚ) / checks.length := by
  unfold partialPassFromEvent at h
  dsimp only at h
  split_ifs at h
  obtain rfl := Option.some.inj h
  constructor
  · unfold PartialPass.passedCheckIndices
    rw [passed_entries]
    ext i
    simp [passedChecks]
  · unfold passedChecks
    rw [passed_length]

theorem partialPass_none_iff :
    partialPassFromEvent e checks offsets maxChars = none ↔ passedChecks checks offsets e = ∅ := by
  unfold partialPassFromEvent
  dsimp only
  rw [passed_length, ← Finset.card_eq_zero]
  split_ifs with hzero
  · simp [passedChecks, hzero]
  · simpa [passedChecks] using hzero

/-- Every partial pass stays among the candidates. -/
theorem partialCandidates_eq (allPruned : List BranchPrunedEvent) (checks : List String)
    (offsets : List (String × Nat × Nat)) (maxChars : Nat) :
    partialCandidates allPruned checks offsets maxChars =
      allPruned.filterMap fun e => partialPassFromEvent e checks offsets maxChars := by
  unfold partialCandidates
  refine List.filter_eq_self.mpr fun p hp => decide_eq_true ?_
  obtain ⟨e, -, he⟩ := List.mem_filterMap.mp hp
  unfold partialPassFromEvent at he
  dsimp only at he
  split_ifs at he with hzero
  obtain rfl := Option.some.inj he
  exact Nat.pos_of_ne_zero hzero

theorem mem_partialCandidates {allPruned : List BranchPrunedEvent} :
    p ∈ partialCandidates allPruned checks offsets maxChars ↔
      ∃ e ∈ allPruned, partialPassFromEvent e checks offsets maxChars = some p := by
  rw [partialCandidates_eq, List.mem_filterMap]

/-- The results of a partial are those of the checks, in their order. -/
def OverChecks (checks : List String) (p : PartialPass) : Prop :=
  p.checkResults.map (fun r => (r.1, r.2.1)) = checks.mapIdx fun i text => (i, text)

/-- The partial of a pruned proposal is one over the check list. -/
theorem overChecks_of_event (h : partialPassFromEvent e checks offsets maxChars = some p) :
    OverChecks checks p := by
  unfold partialPassFromEvent at h
  dsimp only at h
  split_ifs at h
  obtain rfl := Option.some.inj h
  apply List.ext_getElem
  · simp
  · intro i _ _
    simp

theorem OverChecks.indices (h : OverChecks checks p) :
    (p.checkResults.map Prod.fst).toFinset = Finset.range checks.length := by
  have hfirst : p.checkResults.map Prod.fst = List.range checks.length := by
    have hmap := congrArg (List.map Prod.fst) h
    rw [List.map_map] at hmap
    refine hmap.trans ?_
    apply List.ext_getElem
    · simp
    · intro i _ _
      simp
  rw [hfirst]
  ext i
  simp

theorem OverChecks.passed_subset (h : OverChecks checks p) :
    p.passedCheckIndices ⊆ Finset.range checks.length := by
  rw [← h.indices]
  intro i hi
  obtain ⟨r, hr, rfl⟩ := List.mem_map.mp (List.mem_toFinset.mp hi)
  exact List.mem_toFinset.mpr (List.mem_map.mpr ⟨r, (List.mem_filter.mp hr).1, rfl⟩)

end Events

end ControlPlane.Source.MapeK
