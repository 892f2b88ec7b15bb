import ControlPlane.Lib.Entries
import ControlPlane.Lib.Walks
import ControlPlane.Source.MapeK.ExitRoutes

/-!
# Suspected constraints

What `find_instability` can report of a state. Any constraint whose reasons diverge between
the last two waves may be the first that the walk meets, and any of its best scorecards the
last maximum; `Suspect` is such a constraint with such a card, and `verdict` what is reported
of it. The scorecards stay a map over a run: no key is ever doubled.
-/
namespace ControlPlane.Source.MapeK

open Config Constraints Lib Verification

/-! ## Divergence -/

/-- What the loop keeps of a constraint that it stops at. -/
def divergence (threshold : ℚ) (last prev : List (String × List String)) (cid : String) :
    Option (String × ℚ × List String) :=
  match last.lookup cid, prev.lookup cid with
  | some lastRs, some prevRs =>
      let score := constraintReasonsJaccard lastRs prevRs
      if score < threshold then some (cid, score, (dedupConsecutive (lastRs ++ prevRs)).take 5)
      else none
  | _, _ => none

theorem firstDivergent_eq_findSome? (threshold : ℚ) (last prev : List (String × List String))
    (ids : List String) :
    firstDivergent threshold last prev ids = ids.findSome? (divergence threshold last prev) := by
  induction ids with
  | nil => rfl
  | cons cid rest ih =>
      rw [firstDivergent, List.findSome?_cons, divergence]
      cases hlast : last.lookup cid with
      | none => exact ih
      | some lastRs =>
          cases hprev : prev.lookup cid with
          | none => exact ih
          | some prevRs =>
              dsimp only
              split
              · rfl
              · exact ih

/-- The reasons of the constraint diverge between the last two waves. -/
def MapeKController.Divergent (c : MapeKController) (cid : String) : Prop :=
  ∃ lastRs prevRs, (hardReasons c.lastWavePruned).lookup cid = some lastRs ∧
    (hardReasons c.prevWavePruned).lookup cid = some prevRs ∧
    constraintReasonsJaccard lastRs prevRs < c.cfg.gapK1.instabilityThreshold

theorem divergence_iff {threshold : ℚ} {last prev : List (String × List String)}
    {cid named : String} {report : ℚ × List String} :
    divergence threshold last prev cid = some (named, report) ↔
      ∃ lastRs prevRs, last.lookup cid = some lastRs ∧ prev.lookup cid = some prevRs ∧
        constraintReasonsJaccard lastRs prevRs < threshold ∧ cid = named ∧
        (constraintReasonsJaccard lastRs prevRs, (dedupConsecutive (lastRs ++ prevRs)).take 5) =
          report := by
  unfold divergence
  cases last.lookup cid with
  | none => simp
  | some lastRs =>
      cases prev.lookup cid with
      | none => simp
      | some prevRs => simp

/-! ## The best scorecard -/

theorem lastMaxScore_eq_none {cards : Scorecards} (h : lastMaxScore cards = none) : cards = [] := by
  cases cards with
  | nil => rfl
  | cons entry rest =>
      rw [lastMaxScore] at h
      split at h
      · cases h
      · split at h <;> cases h

theorem lastMaxScore_spec {cards : Scorecards} {best : (String × Nat) × AmbiguityScorecard}
    (h : lastMaxScore cards = some best) :
    best ∈ cards ∧ ∀ e ∈ cards, e.2.score ≤ best.2.score := by
  induction cards generalizing best with
  | nil => cases h
  | cons entry rest ih =>
      rw [lastMaxScore] at h
      cases hrest : lastMaxScore rest with
      | none =>
          rw [hrest] at h
          cases h
          rw [lastMaxScore_eq_none hrest]
          exact ⟨List.mem_singleton_self _, fun e he => (List.mem_singleton.mp he) ▸ le_rfl⟩
      | some later =>
          obtain ⟨hmem, hmax⟩ := ih hrest
          rw [hrest] at h
          dsimp only at h
          split at h
          next hlt =>
            cases h
            refine ⟨List.mem_cons_self, ?_⟩
            intro e he
            rcases List.mem_cons.mp he with rfl | he
            · exact le_rfl
            · exact (hmax e he).trans hlt.le
          next hle =>
            cases h
            refine ⟨List.mem_cons_of_mem entry hmem, ?_⟩
            intro e he
            rcases List.mem_cons.mp he with rfl | he
            · exact not_lt.mp hle
            · exact hmax e he

/-- A best card that is met last is the one that is taken. -/
theorem lastMaxScore_concat {cards : Scorecards} {best : (String × Nat) × AmbiguityScorecard}
    (h : ∀ e ∈ cards, e.2.score ≤ best.2.score) : lastMaxScore (cards ++ [best]) = some best := by
  induction cards with
  | nil => rfl
  | cons entry rest ih =>
      have hrest := ih fun e he => h e (List.mem_cons_of_mem entry he)
      rw [List.cons_append, lastMaxScore, hrest]
      exact if_neg (not_lt.mpr (h entry List.mem_cons_self))

/-! ## The card that evidence goes to -/

def isPositional (cid : String) (e : (String × Nat) × AmbiguityScorecard) : Bool :=
  decide (e.1.1 = cid) && decide (e.1.2 ≠ dynamicOnlyCheckIdx)

/-- `current` of `accumulate_ambiguity`. -/
def evidenceCard (cards : Scorecards) (cid : String) : AmbiguityScorecard :=
  (cards.lookup (scorecardKey cards cid)).getD (.new cid (scorecardKey cards cid).2)

/-- A card that evidence for the constraint can go to: one of the best that know a check, or
the one without a check when there is none. -/
inductive CardFor (cards : Scorecards) (cid : String) : AmbiguityScorecard → Prop where
  | best {key card} (entry : (key, card) ∈ cards) (positional : isPositional cid (key, card))
      (best : ∀ e ∈ cards, isPositional cid e → e.2.score ≤ card.score) : CardFor cards cid card
  | dynamicOnly (unlocated : ∀ e ∈ cards, ¬ isPositional cid e) :
      CardFor cards cid ((cards.lookup (cid, dynamicOnlyCheckIdx)).getD
        (.new cid dynamicOnlyCheckIdx))

theorem scorecardKey_of_best {cards : Scorecards} {cid : String}
    {best : (String × Nat) × AmbiguityScorecard}
    (h : lastMaxScore (cards.filter (isPositional cid)) = some best) :
    scorecardKey cards cid = best.1 := by
  unfold scorecardKey
  split
  next entry hentry =>
    cases h.symm.trans hentry
    rfl
  next hnone => cases h.symm.trans hnone

theorem scorecardKey_of_unlocated {cards : Scorecards} {cid : String}
    (h : cards.filter (isPositional cid) = []) :
    scorecardKey cards cid = (cid, dynamicOnlyCheckIdx) := by
  have hnone : lastMaxScore (cards.filter (isPositional cid)) = none := by
    rw [h]
    rfl
  unfold scorecardKey
  split
  next entry hentry => cases hnone.symm.trans hentry
  next => rfl

/-- Whatever the order of the cards, evidence goes to one of these. -/
theorem evidenceCard_cardFor {cards cards' : Scorecards} (nodup : (cards.map Prod.fst).Nodup)
    (h : cards'.Perm cards) (cid : String) : CardFor cards cid (evidenceCard cards' cid) := by
  unfold evidenceCard
  rw [lookup_of_perm nodup h]
  cases hbest : lastMaxScore (cards'.filter (isPositional cid)) with
  | none =>
      have hempty := lastMaxScore_eq_none hbest
      rw [scorecardKey_of_unlocated hempty]
      apply CardFor.dynamicOnly
      intro e he
      exact List.filter_eq_nil_iff.mp hempty e (h.mem_iff.mpr he)
  | some best =>
      obtain ⟨hmem, hmax⟩ := lastMaxScore_spec hbest
      obtain ⟨hentry, hpositional⟩ := List.mem_filter.mp hmem
      have hlookup := (mem_iff_lookup nodup).mp (h.mem_iff.mp hentry)
      rw [scorecardKey_of_best hbest, hlookup]
      apply CardFor.best (h.mem_iff.mp hentry) hpositional
      intro e he hpos
      exact hmax e (List.mem_filter.mpr ⟨h.mem_iff.mpr he, hpos⟩)

/-- Every one of them gets the evidence in some order of the cards. -/
theorem exists_walk_evidenceCard {cards : Scorecards} (nodup : (cards.map Prod.fst).Nodup)
    {cid : String} {card : AmbiguityScorecard} (h : CardFor cards cid card) :
    ∃ w : Walk ((String × Nat) × AmbiguityScorecard), evidenceCard (w.run cards) cid = card := by
  cases h with
  | dynamicOnly unlocated =>
      refine ⟨.stored, ?_⟩
      have hempty : cards.filter (isPositional cid) = [] := List.filter_eq_nil_iff.mpr unlocated
      change evidenceCard cards cid = _
      rw [evidenceCard, scorecardKey_of_unlocated hempty]
  | @best key _ entry positional best =>
      obtain ⟨p, q, rfl⟩ := List.append_of_mem entry
      have hlast : ((p ++ q) ++ [(key, card)]).Perm (p ++ (key, card) :: q) :=
        (List.perm_append_singleton _ _).trans List.perm_middle.symm
      obtain ⟨w, hw⟩ := exists_walk hlast
      have hmax : lastMaxScore (((p ++ q) ++ [(key, card)]).filter (isPositional cid)) =
          some (key, card) := by
        rw [List.filter_append, List.filter_singleton, positional]
        apply lastMaxScore_concat
        intro e he
        obtain ⟨hmem, hpos⟩ := List.mem_filter.mp he
        exact best e (hlast.mem_iff.mp (List.mem_append_left _ hmem)) hpos
      refine ⟨w, ?_⟩
      rw [hw, evidenceCard, lookup_of_perm nodup hlast, scorecardKey_of_best hmax,
        (mem_iff_lookup nodup).mp entry]
      rfl

/-! ## What is reported -/

/-- The card has not led to a rewrite, reaches the threshold with the evidence of the wave,
and knows the check by static evidence. Without ambiguity detection every divergence is
reported. -/
def RepairDue (cfg : AmbiguityDetectionConfig) (card : AmbiguityScorecard) : Prop :=
  cfg.enabled = true → card.rewriteApplied = false ∧
    cfg.scoreThreshold ≤ min (card.score + cfg.weightJaccardFreezeWave) 1 ∧
    card.evidence.any (·.isStatic) = true ∧ card.checkIdx ≠ dynamicOnlyCheckIdx

instance (cfg : AmbiguityDetectionConfig) (card : AmbiguityScorecard) :
    Decidable (RepairDue cfg card) :=
  inferInstanceAs (Decidable (_ → _))

/-- The check that a report names. -/
def reportedCheck (cfg : AmbiguityDetectionConfig) (card : AmbiguityScorecard) : Nat :=
  if cfg.enabled then card.checkIdx else 0

/-- The constraint and the check that are reported of a card. -/
def verdict (cfg : AmbiguityDetectionConfig) (cid : String) (card : AmbiguityScorecard) :
    Option (String × Nat) :=
  if RepairDue cfg card then some (cid, reportedCheck cfg card) else none

/-- The constraint and the check that a step reports. -/
def AmbiguityStep.suspect (step : AmbiguityStep) : Option (String × Nat) :=
  step.signal.map fun signal => (signal.constraintId, signal.checkIndex)

theorem verdict_of_due {cfg : AmbiguityDetectionConfig} {cid : String}
    {card : AmbiguityScorecard} (h : RepairDue cfg card) :
    verdict cfg cid card = some (cid, reportedCheck cfg card) := if_pos h

theorem verdict_of_not_due {cfg : AmbiguityDetectionConfig} {cid : String}
    {card : AmbiguityScorecard} (h : ¬ RepairDue cfg card) : verdict cfg cid card = none := if_neg h

theorem accumulateAmbiguity_suspect (display : AmbiguityEvidence → String)
    {cfg : AmbiguityDetectionConfig} (enabled : cfg.enabled = true) (cards : Scorecards)
    (cid : String) (instabilityScore : ℚ) (reasons : List String) (wave : Nat) :
    (accumulateAmbiguity display cfg cards cid instabilityScore reasons wave).suspect =
      verdict cfg cid (evidenceCard cards cid) := by
  have hcurrent : (cards.lookup (scorecardKey cards cid)).getD
      (.new cid (scorecardKey cards cid).2) = evidenceCard cards cid := rfl
  unfold accumulateAmbiguity
  dsimp only
  rw [hcurrent]
  generalize evidenceCard cards cid = card
  split
  next happlied =>
    rw [verdict_of_not_due]
    · rfl
    · intro hdue
      rw [(hdue enabled).1] at happlied
      cases happlied
  next happlied =>
    have happlied : card.rewriteApplied = false := Bool.not_eq_true _ ▸ happlied
    split
    next hlow =>
      rw [verdict_of_not_due]
      · rfl
      · intro hdue
        exact absurd hlow (not_lt.mpr (hdue enabled).2.1)
    next hscore =>
      have hscore : cfg.scoreThreshold ≤ min (card.score + cfg.weightJaccardFreezeWave) 1 :=
        not_lt.mp hscore
      -- the wave's own evidence is not static
      have hstatic :
          (scoreEvidence card (.jaccardFreezeWave wave instabilityScore) cfg).evidence.any
            (·.isStatic) = card.evidence.any (·.isStatic) := by
        simp [scoreEvidence, AmbiguityEvidence.isStatic]
      unfold AmbiguityScorecard.patchMode
      dsimp only
      rw [hstatic]
      by_cases hprecise : card.evidence.any (·.isStatic) = true ∧
          card.checkIdx ≠ dynamicOnlyCheckIdx
      · rw [verdict_of_due fun _ => ⟨happlied, hscore, hprecise⟩]
        simp [AmbiguityStep.suspect, reportedCheck, enabled, scoreEvidence, hprecise.1, hprecise.2]
      · rw [verdict_of_not_due]
        · have : ¬ (card.evidence.any (·.isStatic) = true ∧
              (scoreEvidence card (.jaccardFreezeWave wave instabilityScore) cfg).checkIdx ≠
                dynamicOnlyCheckIdx) := hprecise
          simp only [this, ↓reduceIte]
          rfl
        · intro hdue
          exact hprecise (hdue enabled).2.2

/-- What the first divergent constraint of the walk makes `find_instability` report. -/
theorem findInstability_suspect (display : AmbiguityEvidence → String)
    (walk : List String → List String) (gapK1 : GapK1Config) (cfg : AmbiguityDetectionConfig)
    (lastWavePruned prevWavePruned : List BranchPrunedEvent) (cards : Scorecards) (wave : Nat) :
    (findInstability display walk gapK1 cfg lastWavePruned prevWavePruned cards wave).suspect =
      (firstDivergent gapK1.instabilityThreshold (hardReasons lastWavePruned)
        (hardReasons prevWavePruned) (walk ((hardReasons lastWavePruned).map Prod.fst))).bind
        fun found => verdict cfg found.1 (evidenceCard cards found.1) := by
  unfold findInstability
  dsimp only
  cases firstDivergent gapK1.instabilityThreshold (hardReasons lastWavePruned)
      (hardReasons prevWavePruned) (walk ((hardReasons lastWavePruned).map Prod.fst)) with
  | none => rfl
  | some found =>
      obtain ⟨cid, score, reasons⟩ := found
      dsimp only [Option.bind_some]
      split
      next enabled => exact accumulateAmbiguity_suspect display enabled cards cid score reasons wave
      next disabled =>
        rw [verdict_of_due fun enabled => absurd enabled disabled, reportedCheck, if_neg disabled]
        rfl

/-! ## Suspects of a state -/

/-- A divergent constraint with a card that the evidence of the wave can go to. -/
structure MapeKController.Suspect (c : MapeKController) (cid : String)
    (card : AmbiguityScorecard) : Prop where
  divergent : c.Divergent cid
  card : CardFor c.ambiguityScorecards cid card

section Suspects

variable {c : MapeKController} {cid : String} {card : AmbiguityScorecard}

/-- The state with its scorecards in another order. -/
def MapeKController.withCards (c : MapeKController) (cards : Scorecards) : MapeKController :=
  { c with ambiguityScorecards := cards }

/-- `find_instability` reports of a suspect, or there is no divergent constraint. -/
theorem instability_suspect (lib : ControllerLib)
    (nodup : (c.ambiguityScorecards.map Prod.fst).Nodup) {cards : Scorecards}
    (hcards : cards.Perm c.ambiguityScorecards) (hids : ∀ ids, (lib.walkIds ids).Perm ids)
    (wave : Nat) :
    (∃ cid card, c.Suspect cid card ∧
      ((c.withCards cards).instability lib wave).suspect =
        verdict c.cfg.ambiguityDetection cid card) ∨
    (∀ cid, ¬ c.Divergent cid) ∧ ((c.withCards cards).instability lib wave).suspect = none := by
  have hreport := findInstability_suspect lib.display lib.walkIds c.cfg.gapK1
    c.cfg.ambiguityDetection c.lastWavePruned c.prevWavePruned cards wave
  rw [firstDivergent_eq_findSome?] at hreport
  cases hfound : (lib.walkIds ((hardReasons c.lastWavePruned).map Prod.fst)).findSome?
      (divergence c.cfg.gapK1.instabilityThreshold (hardReasons c.lastWavePruned)
        (hardReasons c.prevWavePruned)) with
  | none =>
      rw [hfound] at hreport
      refine Or.inr ⟨?_, hreport⟩
      rintro cid ⟨lastRs, prevRs, hlast, hprev, hscore⟩
      have hkey : cid ∈ (hardReasons c.lastWavePruned).map Prod.fst :=
        mem_keys_of_lookup hlast
      have hmiss := List.findSome?_eq_none_iff.mp hfound cid ((hids _).mem_iff.mpr hkey)
      rw [divergence_iff.mpr ⟨lastRs, prevRs, hlast, hprev, hscore, rfl, rfl⟩] at hmiss
      cases hmiss
  | some found =>
      obtain ⟨cid, report⟩ := found
      obtain ⟨met, -, hmet⟩ := List.exists_of_findSome?_eq_some hfound
      obtain ⟨lastRs, prevRs, hlast, hprev, hscore, rfl, -⟩ := divergence_iff.mp hmet
      rw [hfound] at hreport
      refine Or.inl ⟨met, evidenceCard cards met, ?_, hreport⟩
      exact ⟨⟨lastRs, prevRs, hlast, hprev, hscore⟩, evidenceCard_cardFor nodup hcards met⟩

/-- Every suspect is the one that is reported of, for some order of the constraints and of
the scorecards. -/
theorem exists_walks_of_suspect (lib : ControllerLib)
    (nodup : (c.ambiguityScorecards.map Prod.fst).Nodup) (h : c.Suspect cid card) (wave : Nat) :
    ∃ (ids : Walk String) (cards : Walk ((String × Nat) × AmbiguityScorecard)),
      ((c.withCards (cards.run c.ambiguityScorecards)).instability
        { lib with walkIds := ids.run } wave).suspect =
          verdict c.cfg.ambiguityDetection cid card := by
  obtain ⟨lastRs, prevRs, hlast, hprev, hscore⟩ := h.divergent
  have hhit := divergence_iff.mpr ⟨lastRs, prevRs, hlast, hprev, hscore, rfl, rfl⟩
  obtain ⟨ids, hids⟩ := exists_walk_findSome? (mem_keys_of_lookup hlast) hhit
  obtain ⟨cards, hcards⟩ := exists_walk_evidenceCard nodup h.card
  refine ⟨ids, cards, ?_⟩
  have hreport := findInstability_suspect lib.display ids.run c.cfg.gapK1 c.cfg.ambiguityDetection
    c.lastWavePruned c.prevWavePruned (cards.run c.ambiguityScorecards) wave
  rw [firstDivergent_eq_findSome?, hids, Option.bind_some, hcards] at hreport
  exact hreport

end Suspects

/-! ## The scorecards stay a map -/

theorem insert_eq_replaceEntry (key : String × Nat) (card : AmbiguityScorecard)
    (cards : Scorecards) : cards.insert key card = replaceEntry key (fun _ => card) cards := by
  induction cards with
  | nil => rfl
  | cons e rest ih =>
      obtain ⟨k, current⟩ := e
      rw [Scorecards.insert, replaceEntry, ih]
      split
      next heq => rw [heq]
      next => rfl

theorem insert_keys_nodup {cards : Scorecards} (nodup : (cards.map Prod.fst).Nodup)
    (key : String × Nat) (card : AmbiguityScorecard) :
    ((cards.insert key card).map Prod.fst).Nodup := by
  rw [insert_eq_replaceEntry]
  exact nodup_keys_replaceEntry nodup key _

theorem accumulateAmbiguity_keys_nodup (display : AmbiguityEvidence → String)
    (cfg : AmbiguityDetectionConfig) {cards : Scorecards} (nodup : (cards.map Prod.fst).Nodup)
    (cid : String) (instabilityScore : ℚ) (reasons : List String) (wave : Nat) :
    ((accumulateAmbiguity display cfg cards cid instabilityScore reasons wave).cards.map
      Prod.fst).Nodup := by
  unfold accumulateAmbiguity
  dsimp only
  split
  · exact nodup
  · split
    · exact insert_keys_nodup nodup _ _
    · split <;> exact insert_keys_nodup nodup _ _

theorem checkInstability_keys_nodup (lib : ControllerLib) {c : MapeKController}
    (nodup : (c.ambiguityScorecards.map Prod.fst).Nodup) (wave : Nat) :
    ((c.checkInstability lib wave).2.ambiguityScorecards.map Prod.fst).Nodup := by
  unfold MapeKController.checkInstability
  split
  · unfold MapeKController.instability findInstability
    dsimp only
    split
    · exact nodup
    · split
      · exact accumulateAmbiguity_keys_nodup _ _ nodup _ _ _ _
      · exact nodup
  · exact nodup

/-! ## Only the instability check writes scorecards -/

theorem observe_scorecards (c : MapeKController) (events : WaveEvents) (wave : Nat) :
    (c.observe events wave).ambiguityScorecards = c.ambiguityScorecards := by
  obtain ⟨_, _, _, _, _, _, _, _, _, _, _, _, _, heq⟩ := (observe_observed c events wave).eq
  rw [heq]

theorem applyRetryAction_scorecards (lib : ControllerLib) (c : MapeKController)
    (action : RetryAction) (retryCount : Nat) (filterRatio : ℚ) :
    (c.applyRetryAction lib action retryCount filterRatio).2.ambiguityScorecards =
      c.ambiguityScorecards := by
  obtain ⟨_, _, _, _, _, _, heq⟩ := applyRetryAction_eq lib c action retryCount filterRatio
  rw [heq]

theorem Prepared.scorecards {c c' : MapeKController} (h : Prepared c c') :
    c'.ambiguityScorecards = c.ambiguityScorecards := by
  obtain ⟨taus, failure, collapses, tombstone, nEff, zeros, rfl⟩ := h.eq
  rfl

theorem ExitRoute.scorecards {lib : ControllerLib} {c : MapeKController} {retryCount : Nat}
    {reason : ExitReason} {result : MapeKDecision × MapeKController}
    (h : ExitRoute lib c retryCount reason result) :
    result.2.ambiguityScorecards = c.ambiguityScorecards := by
  cases h with
  | probe routed => rfl
  | integration unrouted fires prepared => exact prepared.scorecards
  | ceiling unrouted quiet fires prepared => exact prepared.scorecards
  | policy asks prepared ratio =>
      exact (applyRetryAction_scorecards lib _ _ retryCount ratio).trans prepared.scorecards
  | hallucination unrouted => rfl
  | evicted unrouted => rfl
  | blocked unrouted => rfl

theorem decide_scorecards (lib : ControllerLib) (c : MapeKController) (outcome : PipelineOutcome)
    (retryCount : Nat) (filterRatio : ℚ) :
    (c.decide lib outcome retryCount filterRatio).2.ambiguityScorecards =
      (c.checkInstability lib retryCount).2.ambiguityScorecards := by
  unfold MapeKController.decide
  cases c.checkInstability lib retryCount with
  | mk signal checked =>
      cases signal with
      | some signal => rfl
      | none =>
          dsimp only
          have hdetected : (checked.detectFrozen lib retryCount).ambiguityScorecards =
              checked.ambiguityScorecards := by
            obtain ⟨frozen, bypassed, heq⟩ := detectFrozen_eq lib checked retryCount
            rw [heq]
          cases outcome with
          | resolved merge =>
              obtain ⟨exhausted, gate, tee, taus, quality, heq⟩ :=
                decideResolved_eq (checked.detectFrozen lib retryCount) merge retryCount
              dsimp only
              rw [heq]
              exact hdetected
          | fatal e => exact hdetected
          | earlyExit reason =>
              exact (handleExitReason_route lib _ retryCount reason filterRatio).scorecards.trans
                hdetected

theorem applyOp_scorecards_nodup (lib : ControllerLib) {c : MapeKController}
    (nodup : (c.ambiguityScorecards.map Prod.fst).Nodup) (op : ControllerOp) :
    ((applyOp lib c op).ambiguityScorecards.map Prod.fst).Nodup := by
  cases op with
  | observe events wave =>
      rw [applyOp, observe_scorecards]
      exact nodup
  | injectWaveContinue grounding mandate =>
      obtain ⟨context, heq⟩ := injectWaveContinue_eq c grounding mandate
      rw [applyOp, heq]
      exact nodup
  | decide outcome retryCount filterRatio =>
      rw [applyOp, decide_scorecards]
      exact checkInstability_keys_nodup lib nodup retryCount
  | _ => exact nodup

end ControlPlane.Source.MapeK
