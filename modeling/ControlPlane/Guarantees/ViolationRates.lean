import ControlPlane.Source.Consensus.Osp

/-!
# Violation rates

Audit findings and retry accumulation should work with the fraction of a wave's failed
proposals that violate a constraint. The violations come from the pruned proposals, the
number they are divided by is that of the proposals without a score that were not pruned,
the update stands behind the exit for a wave without a survivor, and only the constraints
that are named in an update decay. So the rates are right in the runs whose waves meet
`FairAction`, and in no other.
-/
namespace ControlPlane.Guarantees.ViolationRates

open Lib Source.Verification Source.MapeK Source.Consensus

/-! ## Statement -/

/-- The fraction of the failed proposals of a wave that violate a constraint. -/
def fraction (wave : MergeWave) (cid : String) : ℚ :=
  (wave.naming cid : ℚ) / wave.pruned.length

/-- The rates that are used and stored in merging one wave. -/
structure WaveRates (config : OspConfig) (acc : RetryAccumulator) (wave : MergeWave)
    (step : MergeStep) : Prop where
  concordances : ∀ e ∈ step.concordances, e.2 = fraction wave e.1 ∧ IsRate e.2
  updated : wave.violations ≠ [] → ∃ rates, step.newRates = some rates ∧
    ∀ e ∈ rates, e.2 = fraction wave e.1 ∧ IsRate e.2
  stored : ∀ cid ∈ wave.violated, step.accumulator.rates.lookup cid =
    some (leaky config.accumulationDecay (acc.rate cid) (fraction wave cid))

def hasViolations : TaskAction → Bool
  | .merge wave => !wave.violations.isEmpty
  | .reset => false

def Spares (cid : String) : TaskAction → Prop
  | .merge wave => cid ∉ wave.violated
  | .reset => True

/-- The accumulator of a task after the actions. -/
def accumulated (p : MergeParts) (config : OspConfig) (actions : List TaskAction) :
    RetryAccumulator :=
  actions.foldl (accumulate p config) .new

/-- Violation rates are rates in the whole run of a task. -/
structure RatesInRun (p : MergeParts) (config : OspConfig) (actions : List TaskAction) :
    Prop where
  waves : ∀ before wave after, actions = before ++ .merge wave :: after →
    WaveRates config (accumulated p config before) wave
      (wave.resolve p config (accumulated p config before))
  stored : ∀ before after, actions = before ++ after →
    ∀ cid, IsRate ((accumulated p config before).rate cid)
  decays : ∀ before spared after, actions = before ++ spared ++ after →
    ∀ cid, (∀ action ∈ spared, Spares cid action) →
      (accumulated p config (before ++ spared)).rate cid ≤
        config.accumulationDecay ^ spared.countP hasViolations *
          (accumulated p config before).rate cid

/-- A wave with violations has a survivor, its violations of a constraint are to its
proposals without a score (or to one) as the pruned proposals with a violation of the
constraint are to all pruned ones, and no rate of another constraint has to decay. -/
def FairAction (config : OspConfig) (acc : RetryAccumulator) : TaskAction → Prop
  | .reset => True
  | .merge wave => wave.violations = [] ∨
      (wave.Survives ∧
        (∀ cid ∈ wave.violated, wave.violated.count cid * wave.pruned.length =
          wave.naming cid * max wave.zeroScored 1) ∧
        ∀ entry ∈ acc.rates.entries, entry.1 ∉ wave.violated →
          entry.2 = 0 ∨ config.accumulationDecay = 1)

instance (config : OspConfig) (acc : RetryAccumulator) (action : TaskAction) :
    Decidable (FairAction config acc action) :=
  match action with
  | .reset => isTrue trivial
  | .merge wave => inferInstanceAs (Decidable (wave.violations = [] ∨
      (wave.Survives ∧
        (∀ cid ∈ wave.violated, wave.violated.count cid * wave.pruned.length =
          wave.naming cid * max wave.zeroScored 1) ∧
        ∀ entry ∈ acc.rates.entries, entry.1 ∉ wave.violated →
          entry.2 = 0 ∨ config.accumulationDecay = 1)))

/-- One action on the accumulator, as a step that is always enabled. -/
def accumulateStep (p : MergeParts) (config : OspConfig) (acc : RetryAccumulator)
    (action : TaskAction) : Option RetryAccumulator :=
  some (accumulate p config acc action)

/-! ## Shares and fractions -/

theorem pruned_length_pos {wave : MergeWave} {cid : String} (h : cid ∈ wave.violated) :
    0 < wave.pruned.length := by
  obtain ⟨e, he, -⟩ := (mem_violated wave cid).mp h
  exact List.length_pos_of_mem he

theorem counted_pos (wave : MergeWave) : 0 < wave.counted := by
  unfold MergeWave.counted
  omega

theorem isRate_fraction {wave : MergeWave} {cid : String} (h : cid ∈ wave.violated) :
    IsRate (fraction wave cid) := by
  have hpos : (0 : ℚ) < wave.pruned.length := Nat.cast_pos.mpr (pruned_length_pos h)
  have hle : (wave.naming cid : ℚ) ≤ wave.pruned.length :=
    Nat.cast_le.mpr List.countP_le_length
  exact ⟨div_nonneg (Nat.cast_nonneg _) hpos.le, (div_le_one hpos).mpr hle⟩

theorem share_eq_fraction_iff {wave : MergeWave} {cid : String} (h : cid ∈ wave.violated) :
    (wave.violated.count cid : ℚ) / wave.counted = fraction wave cid ↔
      wave.violated.count cid * wave.pruned.length = wave.naming cid * wave.counted := by
  have hcounted : (wave.counted : ℚ) ≠ 0 := Nat.cast_ne_zero.mpr (counted_pos wave).ne'
  have hpruned : (wave.pruned.length : ℚ) ≠ 0 :=
    Nat.cast_ne_zero.mpr (pruned_length_pos h).ne'
  rw [fraction, div_eq_div_iff hcounted hpruned]
  exact_mod_cast Iff.rfl

/-- If no pruned proposal violates a constraint twice, fair counting says that as many
proposals were pruned as were left without a score, or one. -/
theorem fair_count_of_named_once {wave : MergeWave} {cid : String} (h : cid ∈ wave.violated)
    (once : ∀ e ∈ wave.pruned, (e.violatedConstraints.map (·.constraintId)).Nodup) :
    wave.violated.count cid * wave.pruned.length = wave.naming cid * wave.counted ↔
      wave.pruned.length = wave.counted := by
  have hcount : wave.violated.count cid = wave.naming cid := by
    rw [MergeWave.violated, MergeWave.violations, List.map_flatMap]
    exact count_flatMap_of_nodup once cid
  have hpos : 0 < wave.naming cid := hcount ▸ List.count_pos_iff.mpr h
  rw [hcount]
  exact Nat.mul_right_inj hpos.ne'

/-! ## One wave -/

/-- A spared constraint keeps its rate, also in a wave without a survivor. -/
theorem rate_of_spared (p : MergeParts) (config : OspConfig) (acc : RetryAccumulator)
    {wave : MergeWave} {cid : String} (h : cid ∉ wave.violated ∨ ¬ wave.Survives) :
    (wave.resolve p config acc).accumulator.rate cid = acc.rate cid := by
  by_cases hreached : wave.violations ≠ [] ∧ wave.Survives
  · obtain ⟨hviolations, hsurvives⟩ := hreached
    have hspared : cid ∉ wave.violated := h.resolve_right (not_not.mpr hsurvives)
    rw [(resolve_of_reached p config acc hviolations hsurvives).1, RetryAccumulator.rate,
      update_lookup_of_not_named hspared, RetryAccumulator.rate]
  · have hunreached : wave.violations = [] ∨ ¬ wave.Survives := by
      rwa [not_and_or, not_not] at hreached
    rw [(resolve_of_unreached p config acc hunreached).1]

/-- A violated constraint takes its share in a wave with a survivor. -/
theorem lookup_of_violated (p : MergeParts) (config : OspConfig) (acc : RetryAccumulator)
    {wave : MergeWave} {cid : String} (h : cid ∈ wave.violated) (hsurvives : wave.Survives) :
    (wave.resolve p config acc).accumulator.rates.lookup cid =
      some (leaky config.accumulationDecay (acc.rate cid)
        ((wave.violated.count cid : ℚ) / wave.counted)) := by
  have hviolations : wave.violations ≠ [] := by
    rintro hnone
    simp [MergeWave.violated, hnone] at h
  rw [(resolve_of_reached p config acc hviolations hsurvives).1]
  exact update_lookup_of_named h (counted_pos wave).ne' _ acc

theorem rate_eq_of_lookup {acc : RetryAccumulator} {cid : String} {r : ℚ}
    (h : acc.rates.lookup cid = some r) : acc.rate cid = r := by
  rw [RetryAccumulator.rate, h, Option.getD_some]

theorem reset_rate (acc : RetryAccumulator) (cid : String) : acc.reset.rate cid = 0 := by
  simp [RetryAccumulator.rate, RetryAccumulator.reset]

/-- Rates never fall below zero, however they are counted. -/
theorem accumulate_nonneg (p : MergeParts) {config : OspConfig}
    (hdecay : IsRate config.accumulationDecay) {acc : RetryAccumulator}
    (h : ∀ cid, 0 ≤ acc.rate cid) (action : TaskAction) (cid : String) :
    0 ≤ (accumulate p config acc action).rate cid := by
  cases action with
  | reset => exact (reset_rate acc cid).ge
  | merge wave =>
      by_cases htaken : cid ∈ wave.violated ∧ wave.Survives
      · have hlookup := lookup_of_violated p config acc htaken.1 htaken.2
        rw [accumulate, rate_eq_of_lookup hlookup]
        exact leaky_nonneg hdecay (h cid) (div_nonneg (Nat.cast_nonneg _) (Nat.cast_nonneg _))
      · rw [not_and_or] at htaken
        rw [accumulate, rate_of_spared p config acc htaken]
        exact h cid

/-- The rates of a fair wave are fractions of its failed proposals. -/
theorem waveRates_of_fair (p : MergeParts) {config : OspConfig} {acc : RetryAccumulator}
    {wave : MergeWave} (h : FairAction config acc (.merge wave)) :
    WaveRates config acc wave (wave.resolve p config acc) := by
  rcases h with hnone | ⟨hsurvives, hcounts, -⟩
  · have hunreached := resolve_of_unreached p config acc (Or.inl hnone)
    constructor
    · rw [hunreached.2.1]
      simp
    · exact fun hne => absurd hnone hne
    · simp [MergeWave.violated, hnone]
  · have hshare : ∀ cid ∈ wave.violated,
        (wave.violated.count cid : ℚ) / wave.counted = fraction wave cid :=
      fun cid hcid => (share_eq_fraction_iff hcid).mpr (hcounts cid hcid)
    have hrates : ∀ e ∈ violationRates wave.violations wave.counted,
        e.2 = fraction wave e.1 ∧ IsRate e.2 := by
      rintro ⟨cid, r⟩ he
      obtain ⟨hcid, hr⟩ := mem_violationRates.mp he
      have hfraction : r = fraction wave cid := hr.trans (hshare cid hcid)
      exact ⟨hfraction, hfraction ▸ isRate_fraction hcid⟩
    constructor
    · intro e he
      by_cases hviolations : wave.violations = []
      · rw [(resolve_of_unreached p config acc (Or.inl hviolations)).2.1] at he
        cases he
      · exact hrates e ((resolve_of_reached p config acc hviolations hsurvives).2.1 e he)
    · intro hviolations
      exact ⟨_, (resolve_of_reached p config acc hviolations hsurvives).2.2, hrates⟩
    · intro cid hcid
      rw [lookup_of_violated p config acc hcid hsurvives, hshare cid hcid]

/-- Fair steps keep rates. -/
theorem accumulate_isRate (p : MergeParts) {config : OspConfig}
    (hdecay : IsRate config.accumulationDecay) {acc : RetryAccumulator}
    (h : ∀ cid, IsRate (acc.rate cid)) {action : TaskAction} (fair : FairAction config acc action)
    (cid : String) : IsRate ((accumulate p config acc action).rate cid) := by
  cases action with
  | reset =>
      rw [accumulate, reset_rate]
      exact isRate_zero
  | merge wave =>
      by_cases htaken : cid ∈ wave.violated ∧ wave.Survives
      · have hlookup := (waveRates_of_fair p fair).stored cid htaken.1
        rw [accumulate, rate_eq_of_lookup hlookup]
        exact isRate_leaky hdecay (h cid) (isRate_fraction htaken.1)
      · rw [not_and_or] at htaken
        rw [accumulate, rate_of_spared p config acc htaken]
        exact h cid

/-- In a fair wave with violations a spared rate has nothing to lose. -/
theorem spared_rate_decays (p : MergeParts) {config : OspConfig}
    (hdecay : IsRate config.accumulationDecay) {acc : RetryAccumulator} {wave : MergeWave}
    {cid : String} (h : 0 ≤ acc.rate cid) (fair : FairAction config acc (.merge wave))
    (hviolations : wave.violations ≠ []) (hspared : cid ∉ wave.violated) :
    (accumulate p config acc (.merge wave)).rate cid ≤
      config.accumulationDecay * acc.rate cid := by
  obtain ⟨-, -, hsettled⟩ := fair.resolve_left hviolations
  rw [accumulate, rate_of_spared p config acc (Or.inl hspared)]
  apply (le_decay_mul_iff hdecay h).mpr
  cases hlookup : acc.rates.lookup cid with
  | none =>
      left
      rw [RetryAccumulator.rate, hlookup, Option.getD_none]
  | some r =>
      rw [rate_eq_of_lookup hlookup]
      exact hsettled ⟨cid, r⟩ (AList.mem_lookup_iff.mp hlookup) hspared

/-! ## Whole runs -/

theorem run_accumulated (p : MergeParts) (config : OspConfig) (actions : List TaskAction) :
    runActions (accumulateStep p config) .new actions = some (accumulated p config actions) :=
  runActions_total (accumulate p config) .new actions

theorem run_from_accumulated (p : MergeParts) (config : OspConfig)
    (before spared : List TaskAction) :
    runActions (accumulateStep p config) (accumulated p config before) spared =
      some (accumulated p config (before ++ spared)) := by
  rw [accumulated, accumulated, List.foldl_append]
  exact runActions_total (accumulate p config) _ spared

theorem new_isRate (cid : String) : IsRate (RetryAccumulator.new.rate cid) := isRate_zero

theorem accumulated_nonneg (p : MergeParts) {config : OspConfig}
    (hdecay : IsRate config.accumulationDecay) (actions : List TaskAction) (cid : String) :
    0 ≤ (accumulated p config actions).rate cid := by
  have hstep : ∀ acc action acc', (∀ cid, 0 ≤ RetryAccumulator.rate acc cid) →
      accumulateStep p config acc action = some acc' → ∀ cid, 0 ≤ acc'.rate cid := by
    intro acc action acc' h hacc' cid
    obtain rfl := Option.some.inj hacc'
    exact accumulate_nonneg p hdecay h action cid
  exact run_holds hstep (fun cid => (new_isRate cid).1) (run_accumulated p config actions) cid

theorem accumulateStep_isRate (p : MergeParts) {config : OspConfig}
    (hdecay : IsRate config.accumulationDecay) :
    ∀ acc action acc', (∀ cid, IsRate (RetryAccumulator.rate acc cid)) →
      FairAction config acc action → accumulateStep p config acc action = some acc' →
      ∀ cid, IsRate (acc'.rate cid) := by
  intro acc action acc' h fair hacc' cid
  obtain rfl := Option.some.inj hacc'
  exact accumulate_isRate p hdecay h fair cid

/-- A spared rate decays with every fair update. -/
theorem spared_decays (p : MergeParts) {config : OspConfig}
    (hdecay : IsRate config.accumulationDecay) {before spared : List TaskAction}
    (rates : ∀ cid, IsRate ((accumulated p config before).rate cid))
    (meets : RunMeets (accumulateStep p config) (FairAction config)
      (accumulated p config before) spared)
    {cid : String} (spares : ∀ action ∈ spared, Spares cid action) :
    (accumulated p config (before ++ spared)).rate cid ≤
      config.accumulationDecay ^ spared.countP hasViolations *
        (accumulated p config before).rate cid := by
  apply runMeets_decay (fun acc => RetryAccumulator.rate acc cid) hdecay.1
    (accumulateStep_isRate p hdecay) ?_ ?_ rates meets (run_from_accumulated p config _ _)
  · intro acc action haction acc' hrates fair hacc' hmarked
    obtain rfl := Option.some.inj hacc'
    cases action with
    | reset => cases hmarked
    | merge wave =>
        have hviolations : wave.violations ≠ [] := by simpa [hasViolations] using hmarked
        exact spared_rate_decays p hdecay (hrates cid).1 fair hviolations (spares _ haction)
  · intro acc action haction acc' hrates _ hacc' _
    obtain rfl := Option.some.inj hacc'
    cases action with
    | reset => exact (reset_rate acc cid).trans_le (hrates cid).1
    | merge wave => exact (rate_of_spared p config acc (Or.inl (spares _ haction))).le

theorem ratesInRun_of_fair (p : MergeParts) {config : OspConfig}
    (hdecay : IsRate config.accumulationDecay) {actions : List TaskAction}
    (meets : RunMeets (accumulateStep p config) (FairAction config) .new actions) :
    RatesInRun p config actions := by
  have hrates : ∀ before after, actions = before ++ after →
      ∀ cid, IsRate ((accumulated p config before).rate cid) := by
    rintro before after rfl
    exact runMeets_holds (accumulateStep_isRate p hdecay) new_isRate
      (runMeets_append.mp meets).1 (run_accumulated p config before)
  refine ⟨?_, hrates, ?_⟩
  · intro before wave after hsplit
    exact waveRates_of_fair p (runMeets_iff_splits.mp meets before (.merge wave) after _ hsplit
      (run_accumulated p config before))
  · rintro before spared after rfl cid spares
    have hbefore : ∀ cid, IsRate ((accumulated p config before).rate cid) :=
      hrates before (spared ++ after) (List.append_assoc _ _ _)
    have hspared := (runMeets_append.mp (runMeets_append.mp meets).1).2 _
      (run_accumulated p config before)
    exact spared_decays p hdecay hbefore hspared spares

/-- A wave that uses and stores its fractions was counted fairly. -/
theorem fair_of_waveRates (p : MergeParts) {config : OspConfig} {acc : RetryAccumulator}
    {wave : MergeWave} (rates : WaveRates config acc wave (wave.resolve p config acc))
    (hviolations : wave.violations ≠ []) :
    wave.Survives ∧ ∀ cid ∈ wave.violated, wave.violated.count cid * wave.pruned.length =
      wave.naming cid * wave.counted := by
  obtain ⟨used, hused, hfractions⟩ := rates.updated hviolations
  have hsurvives : wave.Survives := by
    by_contra hnone
    rw [(resolve_of_unreached p config acc (Or.inr hnone)).2.2] at hused
    cases hused
  refine ⟨hsurvives, fun cid hcid => (share_eq_fraction_iff hcid).mp ?_⟩
  rw [(resolve_of_reached p config acc hviolations hsurvives).2.2, Option.some.injEq] at hused
  subst hused
  exact (hfractions (cid, _) (mem_violationRates.mpr ⟨hcid, rfl⟩)).1

theorem fair_of_ratesInRun (p : MergeParts) {config : OspConfig}
    (hdecay : IsRate config.accumulationDecay) {actions : List TaskAction}
    (rates : RatesInRun p config actions) :
    RunMeets (accumulateStep p config) (FairAction config) .new actions := by
  apply runMeets_iff_splits.mpr
  intro before action after acc hsplit hrun
  rw [run_accumulated, Option.some.injEq] at hrun
  subst hrun
  cases action with
  | reset => exact trivial
  | merge wave =>
      by_cases hviolations : wave.violations = []
      · exact Or.inl hviolations
      · have hfair := fair_of_waveRates p (rates.waves before wave after hsplit) hviolations
        refine Or.inr ⟨hfair.1, hfair.2, ?_⟩
        rintro ⟨cid, r⟩ hentry hspared
        -- One spared update has to shrink the rate, and leaves it as it is.
        have hdecays := rates.decays before [.merge wave] after
          (by rw [hsplit, List.append_assoc]; rfl) cid
          (by simpa [Spares] using hspared)
        have hkept : (accumulated p config (before ++ [.merge wave])).rate cid =
            (accumulated p config before).rate cid := by
          rw [accumulated, List.foldl_append]
          exact rate_of_spared p config _ (Or.inl hspared)
        have hmarked : hasViolations (.merge wave) = true := by
          simpa [hasViolations] using hviolations
        rw [hkept, List.countP_cons_of_pos hmarked, List.countP_nil, pow_one] at hdecays
        have hvalue := rate_eq_of_lookup (AList.mem_lookup_iff.mpr hentry)
        rw [← hvalue]
        exact (le_decay_mul_iff hdecay (accumulated_nonneg p hdecay before cid)).mp hdecays

/-- Library functions near their values at the default configuration. -/
def sampleParts : MergeParts :=
  { externals := Source.Constraints.asciiExternals
    sqrt := fun q => (1 + q) / 2
    ln := fun _ => -23 / 10
    embeddingModel := none
    walk := id
    walk_perm := id_perm }

def sampleConfig : OspConfig := ⟨1 / 8, 1 / 10, 4, 7 / 10⟩

def prunedFor (explorerId : String) (cids : List String) : BranchPrunedEvent :=
  { explorerId := explorerId, reason := "verification", rawOutput := "draft", retryCount := 0
    violatedConstraints := cids.map fun cid => ⟨cid, 0, .hard, none, "", none, [], none, none⟩ }

/-- A wave of one proposal with the score and of the pruned ones. -/
def waveWith (score : ℚ) (pruned : List BranchPrunedEvent) : MergeWave :=
  { taskId := "T-1"
    proposals := ProposalSet.new.insertScored ⟨"T-1", "e0", 0, 0, "answer", 10⟩ score
    pruned := pruned
    retryCount := 0 }

end ControlPlane.Guarantees.ViolationRates
