import ControlPlane.Guarantees.ChangepointPosterior

/-!
# Drift margin

Tasks feed one shared monitor, each with the rate it ended with, and later tasks verify with
the margin the monitor gives then. Over every run of observations and resets, at any times,
the events and the margin are those of the observations since the last reset: the first full
window of them is the reference of the warnings, and the margin is on for as long as the last
changepoint among them is not stale.
-/
namespace ControlPlane.Guarantees.DriftMargin

open Source.Autonomic Source.Autonomic.BocpdDetector ChangepointPosterior

/-! ## Statement -/

inductive DriftAction where
  | observe (now : ℕ) (rate : ℝ)
  | resetAfterRecalibration

/-- What `DriftMonitor::from_config` reads. -/
structure DriftSettings where
  ddmWindow : ℕ
  ddmK : ℝ
  hazardRate : ℝ
  changepointThreshold : ℝ
  conformalMargin : ℝ
  stalenessTtlSecs : ℕ

variable (cfg : DriftSettings)

noncomputable def fromConfig : DriftMonitor ℝ :=
  .new (.new cfg.ddmWindow cfg.ddmK) (.new cfg.hazardRate cfg.changepointThreshold)
    cfg.conformalMargin cfg.stalenessTtlSecs

noncomputable def step (m : DriftMonitor ℝ) : DriftAction → DriftMonitor ℝ
  | .observe now rate => (m.observe realMath now rate).1
  | .resetAfterRecalibration => m.resetAfterRecalibration

noncomputable def monitorAfter (actions : List DriftAction) : DriftMonitor ℝ :=
  actions.foldl step (fromConfig cfg)

/-- The observations since the last reset, the newest first. -/
def sinceReset (actions : List DriftAction) : List (ℕ × ℝ) :=
  actions.foldl (fun seen action =>
    match action with
    | .observe now rate => (now, rate) :: seen
    | .resetAfterRecalibration => []) []

def rates (seen : List (ℕ × ℝ)) : List ℝ := seen.map Prod.snd

/-- The warning of the last of some observations, in their order: their last window against
their first one. -/
noncomputable def expectedWarning (windowSize : ℕ) (k : ℝ) (now : ℕ) (observed : List ℝ) :
    Option (CalibrationDriftWarning ℝ) :=
  let reference := observed.take windowSize
  let recent := observed.drop (observed.length - windowSize)
  let referenceMean := mean reference windowSize
  let recentMean := mean recent windowSize
  let deviation := |recentMean - referenceMean| /
    max (Real.sqrt (windowVariance reference windowSize)) (1 / 100)
  if windowSize < observed.length ∧ k < deviation then
    some
      { detectedAt := now
        metric := "consensus_agreement_rate"
        recentMean := recentMean
        referenceMean := referenceMean
        deviationSigmas := deviation }
  else none

/-- The newest of some observations shows a changepoint. -/
def Reports (xs : List ℝ) : Prop :=
  5 ≤ xs.length ∧ cfg.changepointThreshold < shortShare cfg.hazardRate xs

open Classical in
/-- When a changepoint was last reported. -/
noncomputable def lastReport : List (ℕ × ℝ) → Option ℕ
  | [] => none
  | (now, rate) :: earlier =>
      if Reports cfg (rate :: rates earlier) then some now else lastReport earlier

open Classical in
/-- The events of an observation after the earlier ones. -/
noncomputable def expectedEvents (now : ℕ) (rate : ℝ) (earlier : List (ℕ × ℝ)) :
    List (DriftEvent ℝ) :=
  ((expectedWarning (max cfg.ddmWindow 2) cfg.ddmK now (rate :: rates earlier).reverse).map
      DriftEvent.warning).toList ++
    if Reports cfg (rate :: rates earlier) then
      [.changepoint
        { detectedAt := now
          bocpdRunLengthPosteriorMass := shortShare cfg.hazardRate (rate :: rates earlier)
          conformalMarginApplied := cfg.conformalMargin }]
    else []

/-- The margin is on. -/
def MarginOn (now : ℕ) (seen : List (ℕ × ℝ)) : Prop :=
  ∃ t, lastReport cfg seen = some t ∧ elapsedSecs t now < cfg.stalenessTtlSecs

/-! ## The sliding window -/

section Window

variable {K : Type} [Field K] [LinearOrder K]

/-- The window holds the last observations, and the reference is the first full window. -/
structure Windowed (x : DriftMath K) (windowSize : ℕ) (k : K) (observed : List K)
    (d : DdmDetector K) : Prop where
  size_eq : d.windowSize = windowSize
  k_eq : d.kDdm = k
  window_eq : d.window = observed.drop (observed.length - windowSize)
  initialized_iff : d.initialized = true ↔ windowSize ≤ observed.length
  mean_eq : windowSize ≤ observed.length →
    d.referenceMean = mean (observed.take windowSize) windowSize
  std_eq : windowSize ≤ observed.length →
    d.referenceStd =
      max (x.sqrt (windowVariance (observed.take windowSize) windowSize)) minReferenceStd

variable {x : DriftMath K} {windowSize : ℕ} {k : K} {observed : List K} {d : DdmDetector K}

theorem windowed_new (n : ℕ) (k : K) : Windowed x (max n 2) k [] (.new n k) := by
  have hnot : ¬max n 2 ≤ ([] : List K).length := by simp
  constructor
  case size_eq => rfl
  case k_eq => rfl
  case window_eq => exact List.drop_nil.symm
  case initialized_iff => exact iff_of_false Bool.false_ne_true hnot
  case mean_eq => exact fun h => absurd h hnot
  case std_eq => exact fun h => absurd h hnot

theorem Windowed.reset (h : Windowed x windowSize k observed d) :
    Windowed x windowSize k [] d.reset := by
  have hnot : ¬windowSize ≤ ([] : List K).length := by
    have := d.two_le
    rw [h.size_eq] at this
    simp only [List.length_nil]
    omega
  constructor
  case size_eq => exact h.size_eq
  case k_eq => exact h.k_eq
  case window_eq => exact List.drop_nil.symm
  case initialized_iff => exact iff_of_false Bool.false_ne_true hnot
  case mean_eq => exact fun hle => absurd hle hnot
  case std_eq => exact fun hle => absurd hle hnot

theorem Windowed.pushed_eq (h : Windowed x windowSize k observed d) (v : K) :
    d.pushed v = (observed ++ [v]).drop ((observed ++ [v]).length - windowSize) := by
  have happend : observed.drop (observed.length - windowSize) ++ [v] =
      (observed ++ [v]).drop (observed.length - windowSize) :=
    (List.drop_append_of_le_length (Nat.sub_le _ _)).symm
  rw [DdmDetector.pushed, h.window_eq, h.size_eq, happend]
  simp only [List.length_drop, List.length_append, List.length_singleton]
  split
  · rw [List.tail_drop]
    congr 1
    omega
  · congr 1
    omega

/-- One observation: the window moves on, and the reference is set once. -/
theorem Windowed.observe (h : Windowed x windowSize k observed d) (now : ℕ) (v : K) :
    Windowed x windowSize k (observed ++ [v]) (d.observe x now v).1 := by
  have hpushed := h.pushed_eq v
  have hlength : (d.pushed v).length = min (observed.length + 1) windowSize := by
    rw [hpushed]
    simp only [List.length_drop, List.length_append, List.length_singleton]
    omega
  have htwo : 2 ≤ windowSize := h.size_eq ▸ d.two_le
  simp only [DdmDetector.observe]
  split
  next hfirst =>
      obtain ⟨hnot, hfull⟩ := hfirst
      rw [h.size_eq, hlength] at hfull
      have hbefore : ¬windowSize ≤ observed.length := by
        rw [← h.initialized_iff, hnot]
        exact Bool.false_ne_true
      have hexact : (observed ++ [v]).length = windowSize := by
        simp only [List.length_append, List.length_singleton]
        omega
      have hwindow : d.pushed v = (observed ++ [v]).take windowSize := by
        rw [hpushed, hexact, Nat.sub_self, List.drop_zero, List.take_of_length_le hexact.le]
      constructor
      case size_eq => exact h.size_eq
      case k_eq => exact h.k_eq
      case window_eq => exact hpushed
      case initialized_iff => exact iff_of_true rfl hexact.ge
      case mean_eq =>
        intro _
        simp only [hwindow, h.size_eq]
      case std_eq =>
        intro _
        simp only [hwindow, h.size_eq]
  next hlater =>
      have hsame : windowSize ≤ (observed ++ [v]).length ↔ windowSize ≤ observed.length := by
        simp only [List.length_append, List.length_singleton]
        refine ⟨fun hle => ?_, fun hle => by omega⟩
        by_contra hbefore
        refine hlater ⟨?_, ?_⟩
        · rw [← Bool.not_eq_true, h.initialized_iff]
          exact hbefore
        · rw [hlength, h.size_eq]
          omega
      have hkept : Windowed x windowSize k (observed ++ [v]) { d with window := d.pushed v } := by
        constructor
        case size_eq => exact h.size_eq
        case k_eq => exact h.k_eq
        case window_eq => exact hpushed
        case initialized_iff => exact h.initialized_iff.trans hsame.symm
        case mean_eq =>
          intro hle
          rw [List.take_append_of_le_length (hsame.mp hle)]
          exact h.mean_eq (hsame.mp hle)
        case std_eq =>
          intro hle
          rw [List.take_append_of_le_length (hsame.mp hle)]
          exact h.std_eq (hsame.mp hle)
      split
      · exact hkept
      · split
        · exact hkept
        · exact hkept

end Window

theorem observe_warning {windowSize : ℕ} {k : ℝ} {observed : List ℝ} {d : DdmDetector ℝ}
    (h : Windowed realMath windowSize k observed d) (now : ℕ) (v : ℝ) :
    (d.observe realMath now v).2 = expectedWarning windowSize k now (observed ++ [v]) := by
  have hpushed := h.pushed_eq v
  have hlength : (d.pushed v).length = min (observed.length + 1) windowSize := by
    rw [hpushed]
    simp only [List.length_drop, List.length_append, List.length_singleton]
    omega
  have happend : (observed ++ [v]).length = observed.length + 1 := by
    rw [List.length_append, List.length_singleton]
  by_cases hfull : windowSize ≤ observed.length
  · have hready : d.initialized = true := h.initialized_iff.mpr hfull
    have hwhole : (d.pushed v).length = windowSize := by omega
    have hmore : windowSize < (observed ++ [v]).length := by omega
    simp only [DdmDetector.observe, hready, hwhole, h.size_eq, h.k_eq, h.mean_eq hfull,
      h.std_eq hfull, expectedWarning, List.take_append_of_le_length hfull, ← hpushed, hmore, true_and,
      Bool.true_eq_false, false_and, if_false, lt_irrefl, or_self, realMath, minReferenceStd]
    split
    · rfl
    · rfl
  · have hready : d.initialized = false := by
      rw [← Bool.not_eq_true, h.initialized_iff]
      exact hfull
    have hfew : ¬windowSize < (observed ++ [v]).length := by omega
    simp only [DdmDetector.observe, hready, true_and, true_or, if_true, expectedWarning, hfew,
      false_and, if_false]
    split
    · rfl
    · rfl

/-! ## The monitor -/

section Monitor

variable {cfg}

/-- The detectors and the margin follow the observations since the last reset. -/
structure Follows (cfg : DriftSettings) (seen : List (ℕ × ℝ)) (m : DriftMonitor ℝ) : Prop where
  ddm : Windowed realMath (max cfg.ddmWindow 2) cfg.ddmK (rates seen).reverse m.ddm
  bocpd : m.bocpd = detector cfg.hazardRate cfg.changepointThreshold (rates seen)
  margin : m.conformalMargin = cfg.conformalMargin
  ttl : m.stalenessTtlSecs = cfg.stalenessTtlSecs
  active : m.changepointActive = (lastReport cfg seen).isSome
  detectedAt : m.changepointDetectedAt = lastReport cfg seen

variable {seen : List (ℕ × ℝ)} {m : DriftMonitor ℝ}

theorem follows_fromConfig : Follows cfg [] (fromConfig cfg) := by
  constructor
  case ddm => exact windowed_new cfg.ddmWindow cfg.ddmK
  case bocpd => rfl
  case margin => rfl
  case ttl => rfl
  case active => rfl
  case detectedAt => rfl

theorem reset_detector (hazard threshold : ℝ) (xs : List ℝ) :
    (detector hazard threshold xs).reset = detector hazard threshold [] := by
  obtain ⟨hprior, hhazard, hthreshold⟩ := detector_settings hazard threshold xs
  simp only [BocpdDetector.reset, hprior, hhazard, hthreshold]
  rfl

theorem Follows.reset (h : Follows cfg seen m) : Follows cfg [] m.resetAfterRecalibration := by
  constructor
  case ddm => exact h.ddm.reset
  case bocpd =>
    simp only [DriftMonitor.resetAfterRecalibration, h.bocpd]
    exact reset_detector _ _ _
  case margin => exact h.margin
  case ttl => exact h.ttl
  case active => rfl
  case detectedAt => rfl

/-- What the changepoint detector answers, by the posterior. -/
theorem Follows.changepoint (h : Follows cfg seen m) (pos : 0 < cfg.hazardRate)
    (lt : cfg.hazardRate < 1) (now : ℕ) (rate : ℝ) [Decidable (Reports cfg (rate :: rates seen))] :
    (m.bocpd.observe realMath now rate).2 =
      if Reports cfg (rate :: rates seen) then
        some
          { detectedAt := now
            bocpdRunLengthPosteriorMass := shortShare cfg.hazardRate (rate :: rates seen)
            conformalMarginApplied := 0 }
      else none := by
  rw [h.bocpd, observe_snd pos lt]
  by_cases hreports : Reports cfg (rate :: rates seen)
  · rw [if_pos hreports, if_pos (show 5 ≤ _ ∧ _ from hreports)]
  · rw [if_neg hreports, if_neg (show ¬(5 ≤ _ ∧ _) from hreports)]

open Classical in
/-- One observation, as the later tasks see it. -/
theorem Follows.observe (h : Follows cfg seen m) (pos : 0 < cfg.hazardRate)
    (lt : cfg.hazardRate < 1) (now : ℕ) (rate : ℝ) :
    Follows cfg ((now, rate) :: seen) (m.observe realMath now rate).1 ∧
      (m.observe realMath now rate).2 = expectedEvents cfg now rate seen := by
  have hwarning := observe_warning h.ddm now rate
  have hdetector : (m.bocpd.observe realMath now rate).1 =
      detector cfg.hazardRate cfg.changepointThreshold (rate :: rates seen) := by
    rw [observe_fst, h.bocpd]
    rfl
  have hddm : Windowed realMath (max cfg.ddmWindow 2) cfg.ddmK (rates ((now, rate) :: seen)).reverse
      (m.ddm.observe realMath now rate).1 := by
    rw [rates, List.map_cons, List.reverse_cons]
    exact h.ddm.observe now rate
  have hlast : lastReport cfg ((now, rate) :: seen) =
      if Reports cfg (rate :: rates seen) then some now else lastReport cfg seen := rfl
  rw [← List.reverse_cons] at hwarning
  simp only [DriftMonitor.observe, h.changepoint pos lt, expectedEvents, hwarning]
  by_cases hreports : Reports cfg (rate :: rates seen)
  · rw [if_pos hreports] at hlast
    simp only [if_pos hreports, h.margin, and_true]
    constructor
    case ddm => exact hddm
    case bocpd => exact hdetector
    case margin => rfl
    case ttl => exact h.ttl
    case active => rw [hlast]; rfl
    case detectedAt => exact hlast.symm
  · rw [if_neg hreports] at hlast
    simp only [if_neg hreports, List.append_nil, and_true]
    constructor
    case ddm => exact hddm
    case bocpd => exact hdetector
    case margin => exact h.margin
    case ttl => exact h.ttl
    case active => rw [hlast]; exact h.active
    case detectedAt => rw [hlast]; exact h.detectedAt

theorem follows_monitorAfter (pos : 0 < cfg.hazardRate) (lt : cfg.hazardRate < 1)
    (actions : List DriftAction) : Follows cfg (sinceReset actions) (monitorAfter cfg actions) := by
  induction actions using List.reverseRecOn with
  | nil => exact follows_fromConfig
  | append_singleton before action ih =>
      rw [monitorAfter, sinceReset, List.foldl_append, List.foldl_append]
      cases action with
      | observe now rate => exact (ih.observe pos lt now rate).1
      | resetAfterRecalibration => exact ih.reset

open Classical in
theorem Follows.activeConformalMargin (h : Follows cfg seen m) (now : ℕ) :
    m.activeConformalMargin now = if MarginOn cfg now seen then cfg.conformalMargin else 0 := by
  rw [DriftMonitor.activeConformalMargin, h.active, h.detectedAt, h.margin, h.ttl]
  cases hlast : lastReport cfg seen with
  | none =>
      have hoff : ¬MarginOn cfg now seen := by
        rintro ⟨t, ht, _⟩
        rw [hlast] at ht
        cases ht
      rw [if_neg hoff]
      rfl
  | some t =>
      have hon : MarginOn cfg now seen ↔ elapsedSecs t now < cfg.stalenessTtlSecs := by
        simp only [MarginOn, hlast, Option.some.injEq, exists_eq_left']
      simp only [Option.isSome_some, Bool.true_eq_false, if_false]
      by_cases hfresh : elapsedSecs t now < cfg.stalenessTtlSecs
      · rw [if_pos hfresh, if_pos (hon.mpr hfresh)]
      · rw [if_neg hfresh, if_neg fun h => hfresh (hon.mp h)]

end Monitor

/-! ## The guarantee -/

open Classical in
/-- After any run the events of the next observation, the margin and the threshold that a task
verifies with are those of the observations since the last reset. -/
theorem drift_monitor_follows {cfg : DriftSettings} (pos : 0 < cfg.hazardRate)
    (lt : cfg.hazardRate < 1) (actions : List DriftAction) (now : ℕ) :
    (∀ rate, ((monitorAfter cfg actions).observe realMath now rate).2 =
        expectedEvents cfg now rate (sinceReset actions)) ∧
      (monitorAfter cfg actions).activeConformalMargin now =
        (if MarginOn cfg now (sinceReset actions) then cfg.conformalMargin else 0) ∧
      ∀ threshold : ℝ, 0 < cfg.conformalMargin →
        widenedThreshold threshold ((monitorAfter cfg actions).activeConformalMargin now) =
          if MarginOn cfg now (sinceReset actions) then
            max (threshold - cfg.conformalMargin) 0
          else threshold := by
  have hfollows := follows_monitorAfter pos lt actions
  have hmargin := hfollows.activeConformalMargin now
  refine ⟨fun rate => (hfollows.observe pos lt now rate).2, hmargin, ?_⟩
  intro threshold hpositive
  rw [hmargin, widenedThreshold]
  by_cases hon : MarginOn cfg now (sinceReset actions)
  · simp only [if_pos hon, if_pos hpositive]
  · simp only [if_neg hon, lt_irrefl, if_false]

/-- The default settings. -/
noncomputable def defaultSettings : DriftSettings where
  ddmWindow := 20
  ddmK := 5 / 2
  hazardRate := 1 / 100
  changepointThreshold := 9 / 10
  conformalMargin := 1 / 20
  stalenessTtlSecs := 3600

/-- The guarantee with the default settings, after an observation and a reset. -/
theorem drift_monitor_follows_default :
    widenedThreshold (3 / 5) ((monitorAfter defaultSettings
      [.observe 0 1, .resetAfterRecalibration]).activeConformalMargin 0) = 3 / 5 := by
  have h := (@drift_monitor_follows defaultSettings (by norm_num [defaultSettings])
    (by norm_num [defaultSettings]) [.observe 0 1, .resetAfterRecalibration] 0).2.2 (3 / 5)
    (by norm_num [defaultSettings])
  have hoff : ¬MarginOn defaultSettings 0
      (sinceReset [.observe 0 1, .resetAfterRecalibration]) := by
    rintro ⟨t, ht, _⟩
    cases ht
  rwa [if_neg hoff] at h

end ControlPlane.Guarantees.DriftMargin
