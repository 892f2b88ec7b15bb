import ControlPlane.Lib.Entries
import ControlPlane.Lib.Walks
import ControlPlane.Source.Engine.ActiveContext

/-!
# Gap research

Embeds the domain syntheses of a controller: `DomainSynthesis` and `KnowledgeGapRecord`
(`crates/h2ai-types/src/gap_i1.rs`), `run_gap_i1_research` with its helpers and the eviction
in `observe` (`crates/h2ai-orchestrator/src/mape_k.rs`), `run_gap_researcher`
(`crates/h2ai-orchestrator/src/grounding_chain.rs`), `detect_cold_checks`
(`crates/h2ai-autonomic/src/knowledge_gap.rs`) and `assess_gap_quality`
(`crates/h2ai-autonomic/src/repair.rs`). A wave makes its calls on the controller in the
order of `crates/h2ai-orchestrator/src/engine.rs`.
-/
namespace ControlPlane.Source.Engine.GapResearch

open Lib Constraints Verification MapeK

structure GapI1Config where
  enabled : Bool
  coldCheckThreshold : ℚ
  synthesisMinConfidence : ℚ
  maxGapRecordsPerWave : Nat
  deriving DecidableEq, Repr

/-- `GapI1Config::default`. -/
def GapI1Config.default : GapI1Config := ⟨false, 0, 7 / 10, 3⟩

structure GapQualityConfig where
  minImprovementToRetain : ℚ
  minPostInjectionWaves : Nat
  deriving DecidableEq, Repr

/-- `GapQualityConfig::default`. -/
def GapQualityConfig.default : GapQualityConfig := ⟨1 / 10, 2⟩

structure KnowledgeGapRecord where
  constraintId : String
  checkIdx : Nat
  incorrectConcept : String
  gapQuery : String
  passRateAcrossWaves : ℚ
  deriving DecidableEq, Repr

/-- `DomainSynthesis`: the fields that are printed, and what eviction goes by. -/
structure GapSynthesis where
  synthesis : DomainSynthesis
  confidence : ℚ
  injectedAtWave : Option Nat
  preInjectionPassRate : Option ℚ
  postInjectionPassRates : List ℚ
  deriving DecidableEq, Repr

/-- A constraint and the index of one of its checks. -/
abbrev CheckId := String × Nat

instance lawfulBEq_checkId : LawfulBEq CheckId := inferInstance

/-- `domain_synthesis_cache`. -/
abbrev SynthesisCache := List (CheckId × GapSynthesis)

/-! ## Assessment -/

inductive GapQualityVerdict where
  | pending | effective | ineffective
  deriving DecidableEq, Repr

/-- `assess_gap_quality`. -/
def assessGapQuality (synthesis : GapSynthesis) (cfg : GapQualityConfig) : GapQualityVerdict :=
  if synthesis.injectedAtWave.isNone then .pending
  else
    let post := synthesis.postInjectionPassRates
    if post.length < cfg.minPostInjectionWaves then .pending
    else
      let pre := synthesis.preInjectionPassRate.getD 0
      let latest := post.getLast?.getD 0
      if cfg.minImprovementToRetain ≤ latest - pre then .effective else .ineffective

/-- The last score of a constraint; `0` before it has one. -/
def lastScore (scores : List (String × List ℚ)) (constraintId : String) : ℚ :=
  ((scores.lookup constraintId).bind List.getLast?).getD 0

/-- A synthesis that was injected notes the score behind the wave. -/
def noteRate (scores : List (String × List ℚ)) (entry : CheckId × GapSynthesis) :
    CheckId × GapSynthesis :=
  if entry.2.injectedAtWave.isNone then entry
  else (entry.1, { entry.2 with
    postInjectionPassRates := entry.2.postInjectionPassRates ++ [lastScore scores entry.1.1] })

/-- The eviction in `observe`, with the scores of the wave. -/
def evictIneffective (enabled : Bool) (cfg : GapQualityConfig) (scores : List (String × List ℚ))
    (cache : SynthesisCache) : SynthesisCache :=
  if enabled then
    (cache.map (noteRate scores)).filter fun entry =>
      decide (assessGapQuality entry.2 cfg ≠ .ineffective)
  else cache

/-! ## Research -/

/-- The rates of the checks of one violation. -/
def violationRates (v : ConstraintViolation) : List (CheckId × ℚ) :=
  if v.checkVerdicts.isEmpty then [((v.constraintId, 0), 0)]
  else v.checkVerdicts.zipIdx.map fun (passed, idx) =>
    ((v.constraintId, idx), if passed then 1 else 0)

/-- `wave_check_rates`, in the order in which the map is stored. -/
def waveCheckRates (allPruned : List BranchPrunedEvent) : List (CheckId × ℚ) :=
  let rates := ((allPruned.flatMap (·.violatedConstraints)).flatMap violationRates).foldl
    (fun m (key, rate) => replaceEntry key (fun old => old.getD [] ++ [rate]) m) []
  rates.map fun (key, values) => (key, mean values)

/-- `detect_cold_checks`. -/
def detectColdChecks (checkRates : List (CheckId × ℚ)) (threshold : ℚ) :
    List KnowledgeGapRecord :=
  (checkRates.filter fun (_, rate) => decide (rate ≤ threshold)).map fun (key, rate) =>
    ⟨key.1, key.2, "", "", rate⟩

/-- The first of the shortest reasons, by bytes. -/
def shortestReason (reasons : List String) : String :=
  (reasons.foldl (fun best r => match best with
    | none => some r
    | some b => if r.utf8ByteSize < b.utf8ByteSize then some r else some b) none).getD ""

/-- `extract_incorrect_concept`. -/
def extractIncorrectConcept (allPruned : List BranchPrunedEvent) (key : CheckId) : String :=
  let violations := (allPruned.flatMap (·.violatedConstraints)).filter fun v =>
    decide (v.constraintId = key.1) && decide (v.checkVerdicts[key.2]? = some false)
  let reasons := (violations.filterMap (·.verifierReason)).filter (· ≠ "")
  String.ofList ((shortestReason reasons).toList.take 200)

/-- `constraint_check_text`. -/
def constraintCheckText (c : MapeKController) (key : CheckId) : String :=
  match c.constraintCheckOffsets.find? fun o => decide (o.1 = key.1) with
  | none => ""
  | some (_, start, count) =>
      if key.2 < count then (c.binaryChecks[start + key.2]?).getD "" else ""

structure Grounding where
  groundingStatement : String
  alternatives : List String
  deriving DecidableEq, Repr

/-- What the researcher is answered during a wave. -/
structure ResearchWorld where
  /-- The grounding chain; `none` without one, on a timeout and without a result. -/
  resolve : KnowledgeGapRecord → String → Option Grounding
  /-- Score and reason of the validator; `none` when it fails or answers no JSON. -/
  validate : KnowledgeGapRecord → String → String → Option (ℚ × String)

/-- `run_gap_researcher`. -/
def runGapResearcher (cfg : GapI1Config) (world : ResearchWorld) (record : KnowledgeGapRecord)
    (checkText : String) (corpusPassHint : Option String) : Option GapSynthesis :=
  match world.resolve record checkText with
  | none =>
      let correctPattern := (corpusPassHint.filter (· ≠ "")).getD record.gapQuery
      some ⟨⟨record.incorrectConcept, correctPattern, checkText, none⟩,
        cfg.synthesisMinConfidence, none, none, []⟩
  | some grounding =>
      let correctPattern :=
        if grounding.groundingStatement = "" then record.gapQuery
        else grounding.groundingStatement
      match world.validate record checkText correctPattern with
      | none => none
      | some (score, reason) =>
          if cfg.synthesisMinConfidence ≤ score then
            some ⟨⟨record.incorrectConcept, correctPattern, reason, grounding.alternatives.head?⟩,
              score, none, none, []⟩
          else none

/-- What the controllers of a task have besides the modelled state. -/
structure GapSetup where
  lib : ControllerLib
  gapI1 : GapI1Config
  gapQuality : GapQualityConfig
  /-- `gap_researcher_adapter` is set. -/
  hasResearcher : Bool

/-- One gap of a wave: checks that have a synthesis are passed over. -/
def researchGap (setup : GapSetup) (world : ResearchWorld) (c : MapeKController)
    (passHint : String → Option String) (cache : SynthesisCache) (gap : KnowledgeGapRecord) :
    SynthesisCache :=
  let key : CheckId := (gap.constraintId, gap.checkIdx)
  if key ∈ cache.map Prod.fst then cache
  else
    let checkText := constraintCheckText c key
    let concept := extractIncorrectConcept c.allPruned key
    let record := { gap with
      incorrectConcept := concept
      gapQuery := if concept = "" then checkText else checkText ++ " — " ++ concept }
    match runGapResearcher setup.gapI1 world record checkText (passHint gap.constraintId) with
    | some synth => cache ++ [(key, synth)]
    | none => cache

/-- `run_gap_i1_research`. -/
def runGapI1Research (setup : GapSetup) (world : ResearchWorld) (rates : Walk (CheckId × ℚ))
    (c : MapeKController) (passHint : String → Option String) (cache : SynthesisCache) :
    SynthesisCache :=
  if setup.gapI1.enabled && setup.hasResearcher then
    let cold := detectColdChecks (rates.run (waveCheckRates c.allPruned))
      setup.gapI1.coldCheckThreshold
    (cold.take setup.gapI1.maxGapRecordsPerWave).foldl
      (researchGap setup world c passHint) cache
  else cache

/-! ## Waves -/

/-- A controller and its cache. -/
structure GapState where
  controller : MapeKController
  cache : SynthesisCache

/-- Everything one wave brings. -/
structure GapWave where
  events : WaveEvents
  outcome : PipelineOutcome
  /-- The patterns of an induction that has ended; none without one. -/
  induction : List RetryHintPattern
  oomAbort : Bool
  tokenCost : Nat
  /-- Grounding and mandate override of a `WaveContinue` signal. -/
  continueSignal : Option (Option String × Option String)
  research : ResearchWorld
  rates : Walk (CheckId × ℚ)
  syntheses : Walk (CheckId × GapSynthesis)

section Wave

variable (setup : GapSetup) (retryCount : Nat)

/-- The `observe` call of a wave. -/
def observeWave (s : GapState) (wave : GapWave) : GapState :=
  let c := applyInductionResult (s.controller.observe wave.events retryCount) wave.induction
  { controller := c
    cache := evictIneffective setup.gapI1.enabled setup.gapQuality c.perConstraintWaveScores
      s.cache }

/-- The guards and the wave window between `observe` and the research. -/
def behindWindow (c : MapeKController) (wave : GapWave) : MapeKController :=
  let c := if wave.oomAbort then c.markOomAbort else c
  let c := c.observeWaveTokens wave.tokenCost
  match wave.continueSignal with
  | some (grounding, mandateOverride) => c.injectWaveContinue grounding mandateOverride
  | none => c

def researchWave (s : GapState) (wave : GapWave) : GapState :=
  let c := behindWindow s.controller wave
  { controller := c
    cache := runGapI1Research setup wave.research wave.rates c
      (setup.lib.repairSources retryCount).corpusPassHint s.cache }

/-- The library with the syntheses of the cache. -/
def cachedLib (cache : SynthesisCache) (walk : Walk (CheckId × GapSynthesis)) :
    ControllerLib :=
  { setup.lib with repairSources := fun n =>
      { setup.lib.repairSources n with domainSyntheses := fun constraintId =>
          ((walk.run cache).filter fun e => decide (e.1.1 = constraintId)).map (·.2.synthesis) } }

/-- The decision on a wave. -/
def decideWave (s : GapState) (wave : GapWave) : MapeKDecision × GapState :=
  let answer := s.controller.decide (cachedLib setup s.cache wave.syntheses) wave.outcome
    retryCount wave.events.filterRatio
  (answer.1, ⟨answer.2.takePendingAmbiguityEvents.2, s.cache⟩)

/-- The state in which a wave is decided. -/
def researchedWave (s : GapState) (wave : GapWave) : GapState :=
  researchWave setup retryCount (observeWave setup retryCount s wave) wave

end Wave

/-! ## Which syntheses a retry context prints -/

/-- The targets of the repair context that a decision builds, if it builds one. -/
def builtTargets (lib : ControllerLib) (c : MapeKController) (retryCount : Nat) :
    PipelineOutcome → Option (List RepairTarget)
  | .earlyExit reason =>
      if exitRouted lib c retryCount && asksPolicy lib c retryCount reason then
        match c.policyAction lib retryCount with
        | .retryWithTargets _ targets => if targets.isEmpty then none else some targets
        | _ => none
      else none
  | _ => none

/-- The checks whose syntheses the retry context of the next wave prints: those of the
repair context that is built, none behind another text, else the ones it printed before. -/
def printedNext (setup : GapSetup) (retryCount : Nat) (printed : List CheckId) (s : GapState)
    (wave : GapWave) : List CheckId :=
  let lib := cachedLib setup s.cache wave.syntheses
  match builtTargets lib s.controller retryCount wave.outcome with
  | some targets => (s.cache.map Prod.fst).filter fun key =>
      targets.any fun t => decide (t.constraintId = key.1)
  | none =>
      if (writtenContext lib s.controller retryCount wave.outcome).isSome then [] else printed

/-- The repair context that is built is the one that prints the cached syntheses of its
targets. -/
theorem writtenContext_of_builtTargets {lib : ControllerLib} {c : MapeKController}
    {retryCount : Nat} {outcome : PipelineOutcome} {targets : List RepairTarget}
    (h : builtTargets lib c retryCount outcome = some targets) :
    writtenContext lib c retryCount outcome =
      some (buildRepairContext (c.repairInput lib targets retryCount)) := by
  cases outcome with
  | resolved merge => cases h
  | fatal e => cases h
  | earlyExit reason =>
      simp only [builtTargets] at h
      split at h
      next hroute =>
        rw [Bool.and_eq_true] at hroute
        split at h
        next topology built haction =>
          have htext : policyText lib c retryCount =
              some (buildRepairContext (c.repairInput lib targets retryCount)) := by
            unfold policyText
            rw [haction]
            cases built with
            | nil => cases h
            | cons t rest =>
                cases h
                rfl
          have hasks := hroute.2
          cases reason with
          | hallucinationDetected hint tauValues warning => simp [asksPolicy] at hasks
          | oraclePostSelectionBlocked summary => simp [asksPolicy] at hasks
          | _ => simp [writtenContext, hroute.1, hasks, htext]
        next => cases h
      next => cases h

/-- The retry context behind a decision prints the syntheses of its targets. -/
theorem decideWave_retryContext {setup : GapSetup} {retryCount : Nat} {s : GapState}
    {wave : GapWave} {targets : List RepairTarget}
    (h : builtTargets (cachedLib setup s.cache wave.syntheses) s.controller retryCount
      wave.outcome = some targets) :
    (decideWave setup retryCount s wave).2.controller.retryContext =
      some (buildRepairContext (s.controller.repairInput
        (cachedLib setup s.cache wave.syntheses) targets retryCount)) := by
  have hdecide := decide_context (cachedLib setup s.cache wave.syntheses) s.controller
    wave.outcome retryCount wave.events.filterRatio
  rw [writtenContext_of_builtTargets h] at hdecide
  exact hdecide

/-! ## Runs -/

/-- What a wave of a run leaves behind: the state around its `observe` call, and the
syntheses that its retry context printed. -/
structure WaveRecord where
  before : GapState
  after : GapState
  printed : List CheckId

/-- The waves of one controller: the next one runs behind a retry. -/
def records (setup : GapSetup) : Nat → GapState → List CheckId → List GapWave → List WaveRecord
  | _, _, _, [] => []
  | n, s, printed, wave :: rest =>
      let researched := researchedWave setup n s wave
      let answer := decideWave setup n researched wave
      ⟨s, observeWave setup n s wave, printed⟩ ::
        match answer.1 with
        | .retry =>
            records setup (n + 1) answer.2 (printedNext setup n printed researched wave) rest
        | _ => []

/-! ## No synthesis is marked as injected -/

def Unmarked (cache : SynthesisCache) : Prop := ∀ e ∈ cache, e.2.injectedAtWave = none

theorem unmarked_nil : Unmarked [] := fun _ he => absurd he List.not_mem_nil

theorem assessGapQuality_unmarked {synthesis : GapSynthesis}
    (h : synthesis.injectedAtWave = none) (cfg : GapQualityConfig) :
    assessGapQuality synthesis cfg = .pending := by
  simp [assessGapQuality, h]

theorem evictIneffective_unmarked {cache : SynthesisCache} (h : Unmarked cache) (enabled : Bool)
    (cfg : GapQualityConfig) (scores : List (String × List ℚ)) :
    evictIneffective enabled cfg scores cache = cache := by
  have hnote : cache.map (noteRate scores) = cache := by
    rw [List.map_congr_left (g := id)]
    · exact List.map_id cache
    · intro e he
      simp [noteRate, h e he]
  unfold evictIneffective
  rw [hnote]
  split
  · apply List.filter_eq_self.mpr
    intro e he
    rw [assessGapQuality_unmarked (h e he)]
    rfl
  · rfl

theorem runGapResearcher_unmarked {cfg : GapI1Config} {world : ResearchWorld}
    {record : KnowledgeGapRecord} {checkText : String} {hint : Option String}
    {synth : GapSynthesis} (h : runGapResearcher cfg world record checkText hint = some synth) :
    synth.injectedAtWave = none := by
  unfold runGapResearcher at h
  split at h
  · cases h
    rfl
  · dsimp only at h
    split at h
    · cases h
    · split at h
      · cases h
        rfl
      · cases h

theorem researchGap_unmarked (setup : GapSetup) (world : ResearchWorld) (c : MapeKController)
    (passHint : String → Option String) {cache : SynthesisCache} (h : Unmarked cache)
    (gap : KnowledgeGapRecord) : Unmarked (researchGap setup world c passHint cache gap) := by
  unfold researchGap
  dsimp only
  split
  · exact h
  · split
    next synth hsynth =>
      intro e he
      rcases List.mem_append.mp he with hold | hnew
      · exact h e hold
      · rw [List.mem_singleton.mp hnew]
        exact runGapResearcher_unmarked hsynth
    next => exact h

theorem foldl_researchGap_unmarked (setup : GapSetup) (world : ResearchWorld)
    (c : MapeKController) (passHint : String → Option String) {cache : SynthesisCache}
    (h : Unmarked cache) (gaps : List KnowledgeGapRecord) :
    Unmarked (gaps.foldl (researchGap setup world c passHint) cache) := by
  induction gaps generalizing cache with
  | nil => exact h
  | cons gap rest ih => exact ih (researchGap_unmarked setup world c passHint h gap)

theorem runGapI1Research_unmarked (setup : GapSetup) (world : ResearchWorld)
    (rates : Walk (CheckId × ℚ)) (c : MapeKController) (passHint : String → Option String)
    {cache : SynthesisCache} (h : Unmarked cache) :
    Unmarked (runGapI1Research setup world rates c passHint cache) := by
  unfold runGapI1Research
  split
  · exact foldl_researchGap_unmarked setup world c passHint h _
  · exact h

/-- `observe` leaves the cache of every wave of a run as it was. -/
theorem records_keep (setup : GapSetup) {s : GapState} (h : Unmarked s.cache) (n : Nat)
    (printed : List CheckId) (waves : List GapWave) :
    ∀ r ∈ records setup n s printed waves, r.after.cache = r.before.cache := by
  induction waves generalizing s n printed with
  | nil => exact fun r hr => absurd hr List.not_mem_nil
  | cons wave rest ih =>
      have hobserved : (observeWave setup n s wave).cache = s.cache :=
        evictIneffective_unmarked h _ _ _
      intro r hr
      rw [records] at hr
      rcases List.mem_cons.mp hr with rfl | hlater
      · exact hobserved
      · have hdecided :
            Unmarked (decideWave setup n (researchedWave setup n s wave) wave).2.cache := by
          apply runGapI1Research_unmarked
          rw [hobserved]
          exact h
        split at hlater
        · exact ih hdecided _ _ r hlater
        · cases hlater

end ControlPlane.Source.Engine.GapResearch
