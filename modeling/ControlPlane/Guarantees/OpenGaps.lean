import ControlPlane.Source.Engine.EpistemicFeedback
import ControlPlane.Source.Engine.GapResearch

/-!
# Open gaps and the grade of a document

The feedback loop reports as open what its last check found and what remains of the static
gaps. It takes out of the former every gap whose id was ever closed, while each pass looks
at the document anew: an id that was closed in one pass and is found again in a later one is
reported by nobody.
-/
namespace ControlPlane.Guarantees.OpenGaps

open Source.Engine

/-! ## Statement -/

/-- The passes that were executed. -/
abbrev passesOf (p : FeedbackLoopParams) : List FeedbackPass := (feedbackEnd p).passes

/-- The ids that were closed in front of the last check. -/
def closedBefore (p : FeedbackLoopParams) : List String :=
  (passesOf p).dropLast.flatMap (·.closed)

/-- Every detected gap is open or closed since it was detected, and the grade shows it. -/
structure NothingHidden (p : FeedbackLoopParams) : Prop where
  coherence : ∀ last, (passesOf p).getLast? = some last →
    ∀ gap ∈ last.detected, gap.id ∉ last.closed → gap ∈ (runEpistemicFeedbackLoop p).openGaps
  staticGaps : ∀ gap ∈ p.staticGaps, gap.id ∈ (runEpistemicFeedbackLoop p).closedIds ∨
    gap ∈ (runEpistemicFeedbackLoop p).openGaps
  grade : ∀ passedExplorers laterGaps confirmed,
    stageConfidence passedExplorers p.staticGaps (runEpistemicFeedbackLoop p).closedIds
        ((runEpistemicFeedbackLoop p).openGaps ++ laterGaps) confirmed = .high →
      (∀ last, (passesOf p).getLast? = some last → ∀ gap ∈ last.detected, gap.id ∈ last.closed) ∧
        ∀ gap ∈ p.staticGaps, gap.id ∈ (runEpistemicFeedbackLoop p).closedIds

/-- What the last check found under an id that was closed before is closed again. -/
def FreshlyClosed (p : FeedbackLoopParams) : Prop :=
  ∀ last, (passesOf p).getLast? = some last →
    ∀ gap ∈ last.detected, gap.id ∈ closedBefore p → gap.id ∈ last.closed

/-! ## What is reported as open -/

section Loop

variable {p : FeedbackLoopParams} {last : FeedbackPass}

theorem closedIds_eq (hlast : (passesOf p).getLast? = some last) :
    (runEpistemicFeedbackLoop p).closedIds = closedBefore p ++ last.closed := by
  obtain ⟨before, hpasses⟩ := List.getLast?_eq_some_iff.mp hlast
  have hclosed : (runEpistemicFeedbackLoop p).closedIds = (passesOf p).flatMap (·.closed) :=
    (feedbackEnd_records p).closed
  rw [hclosed, closedBefore, hpasses, List.flatMap_append, List.dropLast_concat,
    List.flatMap_singleton]

theorem openGaps_eq (hlast : (passesOf p).getLast? = some last) :
    (runEpistemicFeedbackLoop p).openGaps =
      p.staticGaps.filter (fun g => decide (g.id ∉ (runEpistemicFeedbackLoop p).closedIds)) ++
        last.detected.filter
          fun g => decide (g.id ∉ (runEpistemicFeedbackLoop p).closedIds) := by
  have hstatic := (feedbackEnd_records p).openStatic
  have hdetected := (feedbackEnd_records p).detected
  rw [hlast] at hdetected
  show (feedbackEnd p).openStatic ++ _ = _
  rw [hstatic, hdetected]
  rfl

/-- A gap whose id was ever closed is not open. -/
theorem closed_of_open {gap : Gap} (h : gap ∈ (runEpistemicFeedbackLoop p).openGaps) :
    gap.id ∉ (runEpistemicFeedbackLoop p).closedIds := by
  have hstatic := (feedbackEnd_records p).openStatic
  rcases List.mem_append.mp h with hopen | hopen
  · rw [hstatic] at hopen
    exact of_decide_eq_true (List.mem_filter.mp hopen).2
  · exact of_decide_eq_true (List.mem_filter.mp hopen).2

/-- Static gaps are never lost. -/
theorem static_open (p : FeedbackLoopParams) {gap : Gap} (hgap : gap ∈ p.staticGaps) :
    gap.id ∈ (runEpistemicFeedbackLoop p).closedIds ∨
      gap ∈ (runEpistemicFeedbackLoop p).openGaps := by
  by_cases hclosed : gap.id ∈ (runEpistemicFeedbackLoop p).closedIds
  · exact Or.inl hclosed
  · refine Or.inr (List.mem_append_left _ ?_)
    rw [(feedbackEnd_records p).openStatic]
    exact List.mem_filter.mpr ⟨hgap, decide_eq_true hclosed⟩

theorem detected_open (hfresh : FreshlyClosed p) (hlast : (passesOf p).getLast? = some last)
    {gap : Gap} (hgap : gap ∈ last.detected) (hopen : gap.id ∉ last.closed) :
    gap ∈ (runEpistemicFeedbackLoop p).openGaps := by
  have hnever : gap.id ∉ (runEpistemicFeedbackLoop p).closedIds := by
    rw [closedIds_eq hlast, List.mem_append, not_or]
    exact ⟨fun hbefore => hopen (hfresh last hlast gap hgap hbefore), hopen⟩
  rw [openGaps_eq hlast]
  exact List.mem_append_right _ (List.mem_filter.mpr ⟨hgap, decide_eq_true hnever⟩)

end Loop

/-! ## The guarantee -/

/-- Nothing is hidden exactly if the last check finds no gap under an id that a pass before
it closed, unless a patch behind the check claims it again. -/
theorem nothingHidden_iff (p : FeedbackLoopParams) : NothingHidden p ↔ FreshlyClosed p := by
  constructor
  · intro h last hlast gap hgap hbefore
    by_contra hopen
    apply closed_of_open (h.coherence last hlast gap hgap hopen)
    rw [closedIds_eq hlast]
    exact List.mem_append_left _ hbefore
  · intro hfresh
    refine ⟨fun last hlast gap hgap hopen => detected_open hfresh hlast hgap hopen,
      fun gap hgap => static_open p hgap, ?_⟩
    intro passedExplorers laterGaps confirmed hhigh
    have hnone : (runEpistemicFeedbackLoop p).openGaps = [] :=
      (List.append_eq_nil_iff.mp (no_open_of_high hhigh)).1
    constructor
    · intro last hlast gap hgap
      by_contra hopen
      have hreported := detected_open hfresh hlast hgap hopen
      rw [hnone] at hreported
      cases hreported
    · intro gap hgap
      rcases static_open p hgap with hclosed | hreported
      · exact hclosed
      · rw [hnone] at hreported
        cases hreported

/-! ## A gap that is found again -/

def missingSection : Gap := ⟨"g1", .missingProvision, "the retention section is missing", none⟩

/-- The checker reports the same gap in every pass; the resolver answers it once. -/
def foundAgain : FeedbackLoopParams :=
  { staticGaps := []
    initialOutput := "Section 1. Access."
    coherenceChecker := some fun _ _ _ => [missingSection]
    resolver := microExplorerResolver fun call _ =>
      if call = 0 then some "Section 1. Access. Section 2." else none
    verifiedProvisionList := []
    constraintText := ""
    constraintIds := []
    maxPasses := 3 }

/-- The last check reports the gap, nothing closes it, and the document is graded high. -/
theorem found_again_is_hidden :
    ¬ NothingHidden foundAgain ∧
      (passesOf foundAgain).map (fun pass => (pass.detected.map (·.id), pass.closed)) =
        [(["g1"], ["g1"]), (["g1"], [])] ∧
      (runEpistemicFeedbackLoop foundAgain).openGaps = [] ∧
      stageConfidence ["explorer-1"] [] (runEpistemicFeedbackLoop foundAgain).closedIds
        (runEpistemicFeedbackLoop foundAgain).openGaps false = .high := by
  have hpasses : (passesOf foundAgain).map
      (fun pass => (pass.detected.map (·.id), pass.closed)) =
        [(["g1"], ["g1"]), (["g1"], [])] := by decide +kernel
  have hopen : (runEpistemicFeedbackLoop foundAgain).openGaps = [] := by decide +kernel
  refine ⟨fun h => ?_, hpasses, hopen, by decide +kernel⟩
  have hlast : ((passesOf foundAgain).getLast?.map fun last =>
      decide (missingSection ∈ last.detected ∧ missingSection.id ∉ last.closed)) = some true := by
    decide +kernel
  obtain ⟨last, hlast, hfound⟩ := Option.map_eq_some_iff.mp hlast
  have hreported := h.coherence last hlast missingSection (of_decide_eq_true hfound).1
    (of_decide_eq_true hfound).2
  rw [hopen] at hreported
  cases hreported

end ControlPlane.Guarantees.OpenGaps

/-!
## Verified provisions and patches

The recovery prompt asks for the verified provisions to be left alone; the loop adopts every
patch it gets, and nothing compares the patch with the document it replaces. The provisions
are kept exactly as long as the answers keep them.
-/
namespace ControlPlane.Guarantees.VerifiedProvisions

open Source.Engine Source.Text

/-! ## Statement -/

/-- The verified provisions that the one document contains stand in the other one too. -/
def Keeps (provisions : List String) (old new : String) : Prop :=
  ∀ provision ∈ provisions, containsText old.toList provision.toList = true →
    containsText new.toList provision.toList = true

instance (provisions : List String) (old new : String) : Decidable (Keeps provisions old new) := by
  unfold Keeps
  infer_instance

/-- No adopted patch drops a verified provision, and the final output holds those of the
initial one. -/
structure KeepsVerified (p : FeedbackLoopParams) : Prop where
  adopted : ∀ a ∈ (feedbackEnd p).adopted, Keeps p.verifiedProvisionList a.replaced a.patch
  final : Keeps p.verifiedProvisionList p.initialOutput (runEpistemicFeedbackLoop p).finalOutput

/-- The calls of the resolver in the run. -/
def callsOf (p : FeedbackLoopParams) : List ResolveCall :=
  (feedbackEnd p).passes.flatMap (·.calls)

/-- Every patch that a call is answered with keeps the provisions of the document that the
call was given. -/
def AnswersKeep (p : FeedbackLoopParams) : Prop :=
  ∀ call ∈ callsOf p, ∀ patch, call.result.patchedText = some patch →
    Keeps p.verifiedProvisionList call.context.resolvedOutput patch

/-! ## The guarantee -/

theorem Keeps.refl (provisions : List String) (document : String) :
    Keeps provisions document document := fun _ _ h => h

theorem Keeps.trans {provisions : List String} {a b c : String} (h : Keeps provisions a b)
    (h' : Keeps provisions b c) : Keeps provisions a c :=
  fun provision hp hcontains => h' provision hp (h provision hp hcontains)

/-- What each patch keeps is kept by all of them together. -/
theorem keeps_of_leadsTo {provisions : List String} {adopted : List Adoption} {old new : String}
    (h : ∀ a ∈ adopted, Keeps provisions a.replaced a.patch) (leads : LeadsTo adopted old new) :
    Keeps provisions old new := by
  induction leads with
  | refl => exact .refl provisions old
  | tail _ step ih => exact ih.trans (h _ step)

theorem mem_adopted_iff {p : FeedbackLoopParams} {a : Adoption} :
    a ∈ (feedbackEnd p).adopted ↔ ∃ call ∈ callsOf p,
      call.result.patchedText = some a.patch ∧ call.context.resolvedOutput = a.replaced := by
  rw [(feedbackEnd_records p).adopted, List.mem_filterMap]
  constructor
  · rintro ⟨call, hcall, hadopts⟩
    obtain ⟨patch, hpatch, rfl⟩ := Option.map_eq_some_iff.mp hadopts
    exact ⟨call, hcall, hpatch, rfl⟩
  · rintro ⟨call, hcall, hpatch, hdocument⟩
    refine ⟨call, hcall, ?_⟩
    unfold ResolveCall.adopts
    rw [hpatch, hdocument]
    rfl

/-- Verified provisions are kept exactly if every patch the resolver answers with keeps those
of the document it was given. -/
theorem keepsVerified_iff (p : FeedbackLoopParams) : KeepsVerified p ↔ AnswersKeep p := by
  constructor
  · intro h call hcall patch hpatch
    exact h.adopted ⟨call.context.resolvedOutput, patch⟩
      (mem_adopted_iff.mpr ⟨call, hcall, hpatch, rfl⟩)
  · intro h
    have hadopted : ∀ a ∈ (feedbackEnd p).adopted,
        Keeps p.verifiedProvisionList a.replaced a.patch := by
      intro a ha
      obtain ⟨call, hcall, hpatch, hdocument⟩ := mem_adopted_iff.mp ha
      rw [← hdocument]
      exact h call hcall a.patch hpatch
    exact ⟨hadopted, keeps_of_leadsTo hadopted (feedbackEnd_records p).leads⟩

/-! ## A patch that rewrites the document -/

/-- The one gap of the document is answered with a document of its own. -/
def rewritten : FeedbackLoopParams :=
  { staticGaps := [⟨"g1", .missingProvision, "the retention section is missing", none⟩]
    initialOutput := "Section 1. Access is logged."
    coherenceChecker := none
    resolver := microExplorerResolver fun _ _ => some "Section 2. Data is kept for a year."
    verifiedProvisionList := ["Access is logged."]
    constraintText := ""
    constraintIds := []
    maxPasses := 1 }

/-- The verified provision is gone from the final output, and the gap counts as closed. -/
theorem rewritten_loses_provision :
    ¬ KeepsVerified rewritten ∧
      (runEpistemicFeedbackLoop rewritten).finalOutput = "Section 2. Data is kept for a year." ∧
      (runEpistemicFeedbackLoop rewritten).closedIds = ["g1"] := by
  refine ⟨fun h => ?_, by decide +kernel, by decide +kernel⟩
  exact absurd h.final (by decide +kernel)

end ControlPlane.Guarantees.VerifiedProvisions

/-!
## Eviction of useless research

A synthesis is assessed by the wave it was injected at, which nothing but a test ever sets:
the paths that build a repair context leave the cached entry as it is. So `observe` evicts
nothing, and useless research is evicted exactly in the runs that have none.
-/
namespace ControlPlane.Guarantees.GapEviction

open Lib Source.Constraints Source.Config Source.MapeK Source.Engine Source.Engine.GapResearch

/-! ## Statement -/

/-- The waves whose retry context printed the synthesis of the check. -/
def injections (rs : List WaveRecord) (key : CheckId) : List WaveRecord :=
  rs.filter fun r => decide (key ∈ r.printed)

/-- By how much the score of the constraint is above what it was before the first of the
waves that printed the synthesis. -/
def improvement (rs : List WaveRecord) (r : WaveRecord) (key : CheckId) : ℚ :=
  let scoreBefore := match (injections rs key).head? with
    | some first => lastScore first.before.controller.perConstraintWaveScores key.1
    | none => 0
  lastScore r.after.controller.perConstraintWaveScores key.1 - scoreBefore

/-- The wave prints the synthesis, and with it enough waves have. -/
structure Judged (cfg : GapQualityConfig) (past : List WaveRecord) (r : WaveRecord)
    (key : CheckId) : Prop where
  cached : key ∈ r.before.cache.map Prod.fst
  printed : key ∈ r.printed
  enough : cfg.minPostInjectionWaves ≤ (injections (past ++ [r]) key).length

instance (cfg : GapQualityConfig) (past : List WaveRecord) (r : WaveRecord) (key : CheckId) :
    Decidable (Judged cfg past r key) :=
  decidable_of_iff (key ∈ r.before.cache.map Prod.fst ∧ key ∈ r.printed ∧
      cfg.minPostInjectionWaves ≤ (injections (past ++ [r]) key).length)
    ⟨fun h => ⟨h.1, h.2.1, h.2.2⟩, fun h => ⟨h.cached, h.printed, h.enough⟩⟩

/-- In every wave of the run: what was judged useless is gone behind `observe`, and an
injected synthesis whose constraint has improved is still there. -/
structure EvictsUseless (cfg : GapQualityConfig) (rs : List WaveRecord) : Prop where
  removed : ∀ past r later, rs = past ++ r :: later → ∀ key, Judged cfg past r key →
    improvement (past ++ [r]) r key < cfg.minImprovementToRetain →
      key ∉ r.after.cache.map Prod.fst
  kept : ∀ past r later, rs = past ++ r :: later → ∀ key ∈ r.before.cache.map Prod.fst,
    injections (past ++ [r]) key ≠ [] →
      cfg.minImprovementToRetain ≤ improvement (past ++ [r]) r key →
        key ∈ r.after.cache.map Prod.fst

/-- The run of a controller without syntheses. -/
def runOf (setup : GapSetup) (c : MapeKController) (waves : List GapWave) : List WaveRecord :=
  records setup 0 ⟨c, []⟩ [] waves

/-! ## The guarantee -/

/-- For every controller, every answer of the researcher and every sequence of waves: no
synthesis may come to be judged before its constraint has improved. -/
theorem evictsUseless_iff (setup : GapSetup) (c : MapeKController) (waves : List GapWave) :
    EvictsUseless setup.gapQuality (runOf setup c waves) ↔
      ∀ past r later, runOf setup c waves = past ++ r :: later → ∀ key,
        Judged setup.gapQuality past r key →
          setup.gapQuality.minImprovementToRetain ≤ improvement (past ++ [r]) r key := by
  have hkeep : ∀ past r later, runOf setup c waves = past ++ r :: later →
      r.after.cache = r.before.cache := by
    intro past r later hrun
    have hmem : r ∈ records setup 0 ⟨c, []⟩ [] waves := by
      rw [← runOf, hrun]
      exact List.mem_append_right past List.mem_cons_self
    exact records_keep setup (s := ⟨c, []⟩) unmarked_nil 0 [] waves r hmem
  constructor
  · intro h past r later hrun key hjudged
    by_contra huseless
    apply h.removed past r later hrun key hjudged (not_le.mp huseless)
    rw [hkeep past r later hrun]
    exact hjudged.cached
  · intro h
    constructor
    · intro past r later hrun key hjudged huseless
      exact absurd (h past r later hrun key hjudged) (not_le.mpr huseless)
    · intro past r later hrun key hcached _ _
      rw [hkeep past r later hrun]
      exact hcached

/-! ## A constraint that research does not help -/

def researchSetup : GapSetup where
  lib := asciiLib
  gapI1 := { GapI1Config.default with enabled := true }
  gapQuality := .default
  hasResearcher := true

def authDoc : ConstraintDoc where
  id := "auth"
  sourceFile := "auth.yaml"
  description := "Use tokens."
  severity := .hard (1 / 2)
  predicate := .llmJudge "The design uses tokens."
  remediationHint := none
  domains := []
  mandatoryForTags := []
  relatedTo := []
  binaryChecks := ["Does every request carry a token?"]
  version := 1
  repairProvenance := none
  passCriteria := none

/-- The only proposal fails the check of the constraint, without survivors; no web search. -/
def failingWave : GapWave where
  events :=
    { verificationEvents := []
      qualityMeasurement := none
      tauSpreadNext := none
      correlatedWarnings := []
      filterRatio := 0
      prunedEvents := [⟨"e1", "violates", "out",
        [⟨"auth", 1 / 5, .hard, none, "Use tokens.", some "sessions", [false], none, none⟩], 0⟩]
      waveProposalTexts := []
      waveTokenCost := 0
      bestPassingConstraintReasons := [] }
  outcome := .earlyExit (.zeroSurvival none none 0 [] [])
  induction := []
  oomAbort := false
  tokenCost := 0
  continueSignal := none
  research := ⟨fun _ _ => none, fun _ _ _ => none⟩
  rates := .stored
  syntheses := .stored

def authRun : List WaveRecord :=
  runOf researchSetup (.new .reference plainInit [authDoc])
    [failingWave, failingWave, failingWave]

/-- The second and the third wave print the synthesis that is made behind the first; it helps
neither, and `observe` leaves it in the cache. -/
theorem useless_synthesis_stays : ¬ EvictsUseless GapQualityConfig.default authRun := by
  intro h
  obtain ⟨r, hr⟩ : ∃ r, authRun.drop 2 = [r] :=
    List.length_eq_one_iff.mp (by decide +kernel)
  have hrun : authRun = authRun.take 2 ++ r :: [] := by
    rw [← hr, List.take_append_drop]
  have hthird : ∀ r ∈ authRun.drop 2,
      Judged GapQualityConfig.default (authRun.take 2) r ("auth", 0) ∧
        improvement (authRun.take 2 ++ [r]) r ("auth", 0) < 1 / 10 ∧
          ("auth", 0) ∈ r.after.cache.map Prod.fst := by
    decide +kernel
  rw [hr] at hthird
  obtain ⟨hjudged, huseless, hstays⟩ := hthird r List.mem_cons_self
  exact h.removed _ r [] hrun _ hjudged huseless hstays

end ControlPlane.Guarantees.GapEviction
