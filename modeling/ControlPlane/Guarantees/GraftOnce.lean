import ControlPlane.Source.Engine.GraftRounds
import ControlPlane.Source.Engine.Grafting
import ControlPlane.Source.Engine.RunOffline
import Mathlib.Data.List.Perm.Subperm

/-!
# A constraint is grafted once

The invariant of the grafting loop ties the grafted ids to the base: of every grafted id the
base passes a check in some range of this id. An id is missing only if it has a range of
which the base passes nothing, so it comes back only if the offsets have it twice.
-/
namespace ControlPlane.Guarantees.GraftOnce

open Source.MapeK Source.Engine

/-! ## Statement -/

/-- The groups of the accepted rounds. -/
def acceptedGroups (steps : List GraftStep) : List (List String) :=
  steps.filterMap fun step =>
    match step.outcome with
    | .accepted ids => some ids
    | _ => none

/-- The offsets have more than one range of this id. -/
def Repeated (offsets : List (String × Nat × Nat)) (id : String) : Prop :=
  2 ≤ (offsets.map (·.1)).count id

/-- The partial passes a check of the range. -/
def PassesSome (p : PartialPass) (o : String × Nat × Nat) : Prop :=
  ∃ i ∈ List.range' o.2.1 o.2.2, i ∈ p.passedCheckIndices

/-- The guard against circular dependencies, at the candidate of a step. -/
def cycleDetected (t : GraftTask) (step : GraftStep) : Bool :=
  graftedIdsCycleDetected (t.missing step.before step.candidate) step.before.graftedIds

structure GraftsOnce (t : GraftTask) (steps : List GraftStep) : Prop where
  groups : (acceptedGroups steps).Pairwise fun ids later =>
    ∀ id ∈ ids, id ∈ later → Repeated t.offsets id
  guard : ∀ step ∈ steps, cycleDetected t step = true →
    ∀ id ∈ t.missing step.before step.candidate, Repeated t.offsets id
  grows : ∀ step ∈ steps,
    step.before.basePartial.passedCheckIndices ⊆ step.after.basePartial.passedCheckIndices
  covers : ∀ step ∈ steps, ∀ ids, step.outcome = .accepted ids →
    ∀ id ∈ ids, ∃ o ∈ t.offsets, o.1 = id ∧ PassesSome step.after.basePartial o
  frame : ∀ step ∈ steps, step.outcome = .skipped ∨ step.outcome = .rolledBack →
    step.after.baseText = step.before.baseText ∧ step.after.baseScore = step.before.baseScore ∧
      step.after.basePartial = step.before.basePartial ∧
        step.after.graftedIds = step.before.graftedIds
  bounded : (acceptedGroups steps).length ≤ max t.maxRounds 1 - 1

/-! ## The guarantee -/

/-- What the loop keeps. -/
structure Tracked (t : GraftTask) (checks : List String) (s : GraftState) : Prop where
  overChecks : OverChecks checks s.basePartial
  grafted : ∀ id ∈ s.graftedIds, ∃ o ∈ t.offsets, o.1 = id ∧ PassesSome s.basePartial o

section Step

variable {t : GraftTask} {checks : List String} {s : GraftState} {candidate : PartialPass}
  {id : String}

theorem passesSome_any_iff {p : PartialPass} {o : String × Nat × Nat} :
    ((List.range' o.2.1 o.2.2).any fun i => decide (i ∈ p.passedCheckIndices)) = true ↔
      PassesSome p o := by
  rw [List.any_eq_true]
  exact exists_congr fun i => and_congr_right fun _ => decide_eq_true_iff

theorem mem_missing : id ∈ t.missing s candidate ↔
    ∃ o ∈ t.offsets, o.1 = id ∧ PassesSome candidate o ∧ ¬ PassesSome s.basePartial o := by
  unfold GraftTask.missing missingConstraintIds
  rw [List.mem_filterMap]
  refine exists_congr fun o => and_congr_right fun _ => ?_
  dsimp only
  rw [← passesSome_any_iff, ← passesSome_any_iff]
  split_ifs with hmissing
  · obtain ⟨hcandidate, hbase⟩ := Bool.and_eq_true_iff.mp hmissing
    rw [Bool.not_eq_true'] at hbase
    simp [hcandidate, hbase]
  · constructor
    · intro h
      cases h
    · intro h
      obtain ⟨-, hcandidate, hbase⟩ := h
      exact absurd (Bool.and_eq_true_iff.mpr
        ⟨hcandidate, by rw [Bool.not_eq_true', ← Bool.not_eq_true]; exact hbase⟩) hmissing

theorem repeated_of_two {offsets : List (String × Nat × Nat)} {o o' : String × Nat × Nat}
    (ho : o ∈ offsets) (ho' : o' ∈ offsets) (hne : o ≠ o') (hid : o.1 = id) (hid' : o'.1 = id) :
    Repeated offsets id := by
  have hpair : [o, o'].Subperm offsets := by
    refine List.Nodup.subperm (by simpa using hne) fun x hx => ?_
    rcases List.mem_cons.mp hx with rfl | hx
    · exact ho
    · rwa [List.mem_singleton.mp hx]
  obtain ⟨l, hperm, hsub⟩ := hpair
  have htwo : (l.map (·.1)).count id = 2 := by
    rw [(hperm.map (·.1)).count_eq]
    simp [hid, hid']
  exact htwo.ge.trans ((hsub.map (·.1)).count_le id)

/-- A grafted id is missing again only on another range. -/
theorem Tracked.repeated (h : Tracked t checks s) (hgrafted : id ∈ s.graftedIds)
    (hmissing : id ∈ t.missing s candidate) : Repeated t.offsets id := by
  obtain ⟨o, ho, hid, hpasses⟩ := h.grafted id hgrafted
  obtain ⟨o', ho', hid', -, hnone⟩ := mem_missing.mp hmissing
  refine repeated_of_two ho ho' ?_ hid hid'
  rintro rfl
  exact hnone hpasses

theorem Tracked.accept (h : Tracked t checks s) (hcandidate : OverChecks checks candidate)
    (a : VerifiedAnswer) : Tracked t checks (t.accept s candidate a) := by
  obtain ⟨hover, hpassed⟩ := accept_base (t := t) a h.overChecks hcandidate
  refine ⟨hover, fun id hid => ?_⟩
  rcases List.mem_append.mp hid with hid | hid
  · obtain ⟨o, ho, hid, i, hi, hpass⟩ := h.grafted id hid
    exact ⟨o, ho, hid, i, hi, hpassed ▸ Finset.mem_union_left _ hpass⟩
  · obtain ⟨o, ho, hid, ⟨i, hi, hpass⟩, -⟩ := mem_missing.mp hid
    exact ⟨o, ho, hid, i, hi, hpassed ▸ Finset.mem_union_right _ hpass⟩

theorem Tracked.step {step : GraftStep} (does : t.Does step)
    (hcandidate : OverChecks checks step.candidate) (h : Tracked t checks step.before) :
    Tracked t checks step.after := by
  cases does with
  | skip => exact h
  | rollBack => exact ⟨h.overChecks, h.grafted⟩
  | accept s candidate a => exact h.accept hcandidate a

/-- One step, from a state that is kept. -/
theorem step_facts {step : GraftStep} (does : t.Does step)
    (hcandidate : OverChecks checks step.candidate) (h : Tracked t checks step.before) :
    step.before.basePartial.passedCheckIndices ⊆ step.after.basePartial.passedCheckIndices ∧
      ∀ ids, step.outcome = .accepted ids →
        ids = t.missing step.before step.candidate ∧
          step.after.graftedIds = step.before.graftedIds ++ ids := by
  cases does with
  | skip => exact ⟨Finset.Subset.refl _, fun ids hids => by cases hids⟩
  | rollBack => exact ⟨Finset.Subset.refl _, fun ids hids => by cases hids⟩
  | accept s candidate a =>
      refine ⟨?_, fun ids hids => ?_⟩
      · rw [(accept_base (t := t) a h.overChecks hcandidate).2]
        exact Finset.subset_union_left
      · obtain rfl := GraftOutcome.accepted.inj hids
        exact ⟨rfl, rfl⟩

theorem step_frame {step : GraftStep} (does : t.Does step)
    (h : step.outcome = .skipped ∨ step.outcome = .rolledBack) :
    step.after.baseText = step.before.baseText ∧ step.after.baseScore = step.before.baseScore ∧
      step.after.basePartial = step.before.basePartial ∧
        step.after.graftedIds = step.before.graftedIds := by
  cases does with
  | skip => exact ⟨rfl, rfl, rfl, rfl⟩
  | rollBack => exact ⟨rfl, rfl, rfl, rfl⟩
  | accept s candidate a => rcases h with h | h <;> cases h

theorem step_graftedIds {step : GraftStep} (does : t.Does step) :
    step.before.graftedIds ⊆ step.after.graftedIds := by
  cases does with
  | skip => exact List.Subset.refl _
  | rollBack => exact List.Subset.refl _
  | accept s candidate a => exact List.subset_append_left _ _

end Step

section Run

variable {t : GraftTask} {checks : List String} {s : GraftState} {candidates : List PartialPass}
  {steps : List GraftStep}

theorem acceptedGroups_cons (step : GraftStep) (steps : List GraftStep) :
    acceptedGroups (step :: steps) =
      (match step.outcome with
        | .accepted ids => [ids]
        | _ => []) ++ acceptedGroups steps := by
  unfold acceptedGroups
  rw [List.filterMap_cons]
  cases step.outcome <;> rfl

/-- What is grafted before a run comes back in it only if it is repeated. -/
theorem run_groups (run : GraftRun t s candidates steps) (h : Tracked t checks s)
    (hover : ∀ c ∈ candidates, OverChecks checks c) :
    (acceptedGroups steps).Pairwise (fun ids later =>
      ∀ id ∈ ids, id ∈ later → Repeated t.offsets id) ∧
      ∀ ids ∈ acceptedGroups steps, ∀ id ∈ ids, id ∈ s.graftedIds → Repeated t.offsets id := by
  induction run with
  | stop => exact ⟨List.Pairwise.nil, by simp [acceptedGroups]⟩
  | @step s candidate rest step steps starts takes does run ih =>
      subst starts takes
      obtain ⟨hcandidate, hrest⟩ := List.forall_mem_cons.mp hover
      obtain ⟨hpairwise, hbefore⟩ := ih (h.step does hcandidate) hrest
      have hlater : ∀ ids ∈ acceptedGroups steps, ∀ id ∈ ids, id ∈ step.before.graftedIds →
          Repeated t.offsets id := fun ids hids id hid hgrafted =>
        hbefore ids hids id hid (step_graftedIds does hgrafted)
      rw [acceptedGroups_cons]
      cases houtcome : step.outcome with
      | skipped => exact ⟨hpairwise, hlater⟩
      | rolledBack => exact ⟨hpairwise, hlater⟩
      | accepted ids =>
          obtain ⟨hids, hafter⟩ := (step_facts does hcandidate h).2 ids houtcome
          refine ⟨List.pairwise_cons.mpr ⟨fun later hl id hid hid' => ?_, hpairwise⟩, ?_⟩
          · exact hbefore later hl id hid' (hafter ▸ List.mem_append_right _ hid)
          · refine List.forall_mem_cons.mpr ⟨fun id hid hgrafted => ?_, hlater⟩
            exact h.repeated hgrafted (hids ▸ hid)

theorem run_bounded (run : GraftRun t s candidates steps) :
    (acceptedGroups steps).length + s.roundsUsed ≤ max (max t.maxRounds 1 - 1) s.roundsUsed := by
  induction run with
  | stop => simp [acceptedGroups]
  | @step s candidate rest step steps starts takes does run ih =>
      subst starts
      rw [acceptedGroups_cons]
      cases does with
      | skip => exact ih
      | rollBack => exact ih
      | accept s candidate a left =>
          have hused : (t.accept s candidate a).roundsUsed = s.roundsUsed + 1 := rfl
          simp only [hused, List.length_append, List.length_singleton] at ih ⊢
          omega

end Run

/-- For every list of partials over one check list, every offsets and every sequence of
answers and verification outcomes. -/
theorem grafts_once (t : GraftTask) (answers : Nat → String → Option VerifiedAnswer)
    (checks : List String) (seed : PartialPass) (rest : List PartialPass)
    (hseed : OverChecks checks seed) (hrest : ∀ c ∈ rest, OverChecks checks c) :
    GraftsOnce t (graftSteps t answers (.seed seed) rest) := by
  have hrun := graftSteps_run t answers (.seed seed) rest
  have hstart : Tracked t checks (.seed seed) := ⟨hseed, by simp [GraftState.seed]⟩
  have hkept := hrun.invariant hstart fun step does hin hbefore =>
    hbefore.step does (hrest _ hin)
  constructor
  · exact (run_groups hrun hstart hrest).1
  · intro step hstep hcycle id hid
    obtain ⟨-, -, hbefore, -⟩ := hkept step hstep
    obtain ⟨-, hall⟩ := Bool.and_eq_true_iff.mp hcycle
    have hgrafted := List.all_eq_true.mp hall id hid
    exact hbefore.repeated (by simpa using hgrafted) hid
  · intro step hstep
    obtain ⟨hin, does, hbefore, -⟩ := hkept step hstep
    exact (step_facts does (hrest _ hin) hbefore).1
  · intro step hstep ids hids id hid
    obtain ⟨hin, does, hbefore, hafter⟩ := hkept step hstep
    have hgrafted := ((step_facts does (hrest _ hin) hbefore).2 ids hids).2
    exact hafter.grafted id (hgrafted ▸ List.mem_append_right _ hid)
  · intro step hstep
    exact step_frame (hkept step hstep).2.1
  · have hbound := run_bounded hrun
    have hnone : (GraftState.seed seed).roundsUsed = 0 := rfl
    omega

/-! ## Two ranges of one id -/

/-- The groups are disjoint, and the guard never fires. -/
structure NeverAgain (t : GraftTask) (steps : List GraftStep) : Prop where
  groups : (acceptedGroups steps).Pairwise List.Disjoint
  guard : ∀ step ∈ steps, cycleDetected t step = false

/-- Two ranges of `C-1` and one of `C-2`. -/
def twoRanges : GraftTask := ⟨[("C-1", 0, 1), ("C-1", 1, 1), ("C-2", 2, 3)], "", 4⟩

/-- A partial over five checks that passes those of the list. -/
def passing (indices : List Nat) : PartialPass :=
  ⟨"draft", resultsOf ["a", "b", "c", "d", "e"] fun i => indices.contains i, 0⟩

/-- The steps at a seed that passes a check of `C-2` and at two candidates for the two
ranges of `C-1`, with answers that all verify. -/
def twoRangeSteps : List GraftStep :=
  graftSteps twoRanges (fun _ _ => some ⟨"draft", 1⟩) (.seed (passing [2]))
    [passing [0], passing [1]]

theorem twoRangeSteps_grafts_once : GraftsOnce twoRanges twoRangeSteps :=
  grafts_once twoRanges _ ["a", "b", "c", "d", "e"] (passing [2]) [passing [0], passing [1]]
    (overChecks_of_results rfl) (by
      intro c hc
      rcases List.mem_cons.mp hc with rfl | hc
      · exact overChecks_of_results rfl
      · rw [List.mem_singleton.mp hc]
        exact overChecks_of_results rfl)

/-- The ranges are disjoint, and the second candidate is skipped by the guard. -/
theorem second_range_is_skipped :
    twoRanges.offsets.Pairwise (fun o o' => o.2.1 + o.2.2 ≤ o'.2.1) ∧
      ¬ NeverAgain twoRanges twoRangeSteps := by
  refine ⟨by decide, fun h => ?_⟩
  have hsteps : twoRangeSteps.any (cycleDetected twoRanges) = true := by decide +kernel
  obtain ⟨step, hstep, hcycle⟩ := List.any_eq_true.mp hsteps
  rw [h.guard step hstep] at hcycle
  cases hcycle

end ControlPlane.Guarantees.GraftOnce

/-!
# Grafting and the ground it holds

A graft is accepted when it verifies no lower than the base score. Behind the first accepted
graft that score is the score of the base text, and no text is lost to a worse one. In front
of it the base score is the fraction of passed checks of the seed, while the grafts are
measured by their mean compliance: a graft may beat the one and fall behind the other.
-/
namespace ControlPlane.Guarantees.GraftMonotone

open Lib Source.Engine Source.Constraints Source.Verification Source.MapeK

/-! ## Statement -/

/-- With every sequence of answers the text at the end verifies no lower than the seed and
than any text that was held in between. -/
def KeepsGround (g : GraftSetup) (seed : PartialPass) (rest : List PartialPass) : Prop :=
  ∀ adapter, ∀ held ∈ graftStates g adapter (.seed seed) rest,
    g.textScore held.baseText ≤ g.textScore (graftLoop g adapter (.seed seed) rest).baseText

/-- The round limit leaves no round, or the guards skip every candidate. -/
def asksNobody (g : GraftSetup) (seed : PartialPass) (rest : List PartialPass) : Bool :=
  max g.maxRounds 1 - 1 = 0 || rest.all fun candidate => !g.asks (.seed seed) candidate

/-- A text that verifies no lower than the fraction of checks that the seed passed verifies
no lower than the seed. -/
def SeedFair (g : GraftSetup) (seed : PartialPass) : Prop :=
  ∀ text, seed.score ≤ g.textScore text → g.textScore seed.proposalText ≤ g.textScore text

theorem mem_graftStates_start {g : GraftSetup} {adapter : GraftAdapter} (s : GraftState)
    (rest : List PartialPass) : s ∈ graftStates g adapter s rest := by
  cases rest with
  | nil => exact List.mem_singleton_self s
  | cons candidate rest => exact List.mem_cons_self

/-! ## In front of the first answer -/

section Silent

variable {g : GraftSetup} {adapter : GraftAdapter} {seed : PartialPass}

/-- The loop stays at the seed all the way. -/
def StaysAtSeed (g : GraftSetup) (adapter : GraftAdapter) (seed : PartialPass)
    (rest : List PartialPass) : Prop :=
  graftLoop g adapter (.seed seed) rest = .seed seed ∧
    ∀ held ∈ graftStates g adapter (.seed seed) rest, held = .seed seed

theorem staysAtSeed_of_no_round (h : max g.maxRounds 1 - 1 = 0) (rest : List PartialPass) :
    StaysAtSeed g adapter seed rest := by
  cases rest with
  | nil => exact ⟨rfl, fun held hheld => List.mem_singleton.mp hheld⟩
  | cons candidate rest =>
      have hstep : graftCandidate g adapter (.seed seed) candidate = none := by
        unfold graftCandidate
        rw [if_pos (by omega)]
      refine ⟨by rw [graftLoop, hstep], fun held hheld => ?_⟩
      rw [graftStates, hstep] at hheld
      exact List.mem_singleton.mp hheld

/-- A skipped candidate leaves the state. -/
theorem graftCandidate_skipped {s : GraftState} {candidate : PartialPass}
    (hrounds : ¬ max g.maxRounds 1 - 1 ≤ s.roundsUsed) (hskip : g.asks s candidate = false) :
    graftCandidate g adapter s candidate = some s := by
  unfold graftCandidate
  rw [if_neg hrounds, if_pos (by simp [hskip])]

theorem staysAtSeed_of_skipped {rest : List PartialPass}
    (hskip : ∀ candidate ∈ rest, g.asks (.seed seed) candidate = false) :
    StaysAtSeed g adapter seed rest := by
  induction rest with
  | nil => exact ⟨rfl, fun held hheld => List.mem_singleton.mp hheld⟩
  | cons candidate rest ih =>
      by_cases hrounds : max g.maxRounds 1 - 1 ≤ (GraftState.seed seed).roundsUsed
      · exact staysAtSeed_of_no_round (Nat.le_zero.mp hrounds) (candidate :: rest)
      · have hstep : graftCandidate g adapter (.seed seed) candidate = some (.seed seed) :=
          graftCandidate_skipped hrounds (hskip candidate List.mem_cons_self)
        have htail := ih fun c hc => hskip c (List.mem_cons_of_mem candidate hc)
        refine ⟨by rw [graftLoop, hstep]; exact htail.1, fun held hheld => ?_⟩
        rw [graftStates, hstep] at hheld
        rcases List.mem_cons.mp hheld with hhead | hrest
        · exact hhead
        · exact htail.2 held hrest

/-- Nobody is asked, and nothing is lost. -/
theorem keeps_of_staysAtSeed {rest : List PartialPass} (h : StaysAtSeed g adapter seed rest)
    {held : GraftState} (hheld : held ∈ graftStates g adapter (.seed seed) rest) :
    g.textScore held.baseText ≤ g.textScore (graftLoop g adapter (.seed seed) rest).baseText := by
  have hsame : held.baseText = (graftLoop g adapter (.seed seed) rest).baseText := by
    rw [h.1, h.2 held hheld]
  have hscore := congrArg g.textScore hsame
  exact le_of_eq hscore

end Silent

/-! ## One answer -/

/-- The adapter that answers once. -/
def answersOnce (text : String) : GraftAdapter := fun call _ =>
  if call = 0 then some ⟨text, 0, ""⟩ else none

section Once

variable {g : GraftSetup} {text : String}

/-- Behind the first call nothing is taken. -/
theorem graftLoop_answered {s : GraftState} (hcalls : s.calls ≠ 0) (rest : List PartialPass) :
    graftLoop g (answersOnce text) s rest = s := by
  induction rest with
  | nil => rfl
  | cons candidate rest ih =>
      rw [graftLoop]
      unfold graftCandidate
      split_ifs
      · rfl
      · exact ih
      · simp [answersOnce, hcalls]

/-- The first candidate that comes past the guards is answered, and the answer is taken. -/
theorem graftLoop_answersOnce {seed : PartialPass} {rest : List PartialPass}
    (hrounds : max g.maxRounds 1 - 1 ≠ 0) (hreaches : seed.score ≤ g.textScore text)
    {candidate : PartialPass} (hmem : candidate ∈ rest)
    (hasks : g.asks (.seed seed) candidate = true) :
    (graftLoop g (answersOnce text) (.seed seed) rest).baseText = text := by
  induction rest with
  | nil => cases hmem
  | cons first rest ih =>
      have hopen : ¬ max g.maxRounds 1 - 1 ≤ (GraftState.seed seed).roundsUsed := by
        show ¬ max g.maxRounds 1 - 1 ≤ 0
        omega
      by_cases hfirst : g.asks (.seed seed) first = true
      · have hstep : graftCandidate g (answersOnce text) (.seed seed) first =
            some (g.settle (.seed seed) first ⟨text, 0, ""⟩) := by
          unfold graftCandidate
          rw [if_neg hopen, if_neg (by simp [hfirst])]
          rfl
        have hsettled : (g.settle (.seed seed) first ⟨text, 0, ""⟩).baseText = text ∧
            (g.settle (.seed seed) first ⟨text, 0, ""⟩).calls = 1 := by
          unfold GraftSetup.settle
          rw [if_pos (show (GraftState.seed seed).baseScore ≤ g.newScore _ from hreaches)]
          exact ⟨rfl, rfl⟩
        rw [graftLoop, hstep]
        show (graftLoop g (answersOnce text) _ rest).baseText = text
        rw [graftLoop_answered (by rw [hsettled.2]; exact one_ne_zero)]
        exact hsettled.1
      · have hrest : candidate ∈ rest := by
          rcases List.mem_cons.mp hmem with rfl | hrest
          · exact absurd hasks hfirst
          · exact hrest
        rw [graftLoop, graftCandidate_skipped hopen (by simpa using hfirst)]
        exact ih hrest

end Once

/-! ## The guarantee -/

/-- Grafting keeps its ground with every sequence of answers exactly if it asks for none, or
the seed is not worth more than the bound it sets. -/
theorem keepsGround_iff (g : GraftSetup) (seed : PartialPass) (rest : List PartialPass) :
    KeepsGround g seed rest ↔ asksNobody g seed rest = true ∨ SeedFair g seed := by
  constructor
  · intro hkeeps
    by_cases hsilent : asksNobody g seed rest = true
    · exact Or.inl hsilent
    · refine Or.inr fun text hreaches => ?_
      simp only [asksNobody, Bool.or_eq_true, decide_eq_true_eq, List.all_eq_true, not_or,
        not_forall, Bool.not_eq_true', Bool.not_eq_false] at hsilent
      obtain ⟨hrounds, candidate, hmem, hasks⟩ := hsilent
      have hend := hkeeps (answersOnce text) _ (mem_graftStates_start (.seed seed) rest)
      rw [graftLoop_answersOnce hrounds hreaches hmem hasks] at hend
      exact hend
  · intro h adapter held hheld
    rcases h with hsilent | hfair
    · simp only [asksNobody, Bool.or_eq_true, decide_eq_true_eq, List.all_eq_true,
        Bool.not_eq_true'] at hsilent
      rcases hsilent with hrounds | hskip
      · exact keeps_of_staysAtSeed (staysAtSeed_of_no_round hrounds rest) hheld
      · exact keeps_of_staysAtSeed (staysAtSeed_of_skipped hskip) hheld
    · obtain ⟨hbefore, hafter⟩ := graftStates_ascent hheld
      have hle := hbefore.held_le hafter hfair
      exact hle

/-! ## A seed that is worth more than its checks -/

def auditDoc : ConstraintDoc :=
  { sessionDoc with
    id := "C-AUDIT"
    predicate := .vocabularyPresence .allOf ["audit"]
    binaryChecks := ["keeps an audit log"] }

def tokenDoc : ConstraintDoc :=
  { sessionDoc with
    id := "C-TOKEN"
    severity := .hard (4 / 5)
    predicate := .vocabularyPresence .allOf ["jwt", "issuer", "expiry", "nonce"]
    binaryChecks := ["describes the token"] }

def tokenSetup : GraftSetup :=
  { taskId := "task"
    tau := 1 / 2
    corpus := [auditDoc, tokenDoc]
    systemContext := ""
    maxRounds := 3
    verifier := plainVerifier
    config := plainInit.verificationConfig }

/-- A draft that was pruned for the constraint, none of whose checks it passed. -/
def draftPrunedFor (constraintId text : String) : BranchPrunedEvent :=
  { explorerId := "explorer-1"
    reason := constraintId
    rawOutput := text
    violatedConstraints := [⟨constraintId, 1 / 2, .hard, none, "", none, [false], none, none⟩]
    retryCount := 0 }

/-- The partials of a draft with a log and three of the four token terms, and of a draft
with no log. -/
def tokenPartials : List PartialPass :=
  sortedPartials (selectOrthogonalPartials
    [draftPrunedFor "C-AUDIT" "a jwt", draftPrunedFor "C-TOKEN" "audit jwt issuer expiry"]
    (tokenSetup.corpus.flatMap (·.binaryChecks)) tokenSetup.offsets 3 200)

/-- The seed verifies at 7/8, and a graft that drops a term at 3/4 takes its place: both are
above the half of the checks that the seed passed. -/
theorem graft_drops_term :
    ∃ seed rest, tokenPartials = seed :: rest ∧ ¬ KeepsGround tokenSetup seed rest ∧
      (graftLoop tokenSetup (answersOnce "audit jwt issuer") (.seed seed) rest).baseText =
        "audit jwt issuer" ∧
      tokenSetup.textScore seed.proposalText = 7 / 8 ∧
      tokenSetup.textScore "audit jwt issuer" = 3 / 4 ∧ seed.score = 1 / 2 := by
  refine ⟨tokenPartials.head (by decide +kernel), tokenPartials.tail,
    (List.cons_head_tail _).symm, ?_, by decide +kernel, by decide +kernel, by decide +kernel,
    by decide +kernel⟩
  intro hkeeps
  have hend := hkeeps (answersOnce "audit jwt issuer") _ (mem_graftStates_start (.seed _) _)
  exact absurd hend (by decide +kernel)

end ControlPlane.Guarantees.GraftMonotone
