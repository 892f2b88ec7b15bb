import ControlPlane.Source.Audit.ShadowAuditor
import Mathlib.Tactic.Linarith

/-!
# Promoted audit domains are never demoted

The ring buffer of a domain is created with the promotion window `W` and never gets
another capacity, so it holds at most `W` observations. The demotion rule asks for `2W`
of them. For every `W ≥ 1` it therefore never fires, whatever the stream.
-/
namespace ControlPlane.Guarantees.ShadowDemotion

open Source.Audit

/-! ## The buffers stay within the promotion window -/

structure WindowsBounded (cfg : ShadowAuditorConfig) (s : ShadowState) : Prop where
  bounded : ∀ domain w, s.windows domain = some w →
    w.window = cfg.promotionWindow ∧ w.nObservations ≤ cfg.promotionWindow

variable {cfg : ShadowAuditorConfig} {s : ShadowState}

theorem push_bounded (positive : 0 < cfg.promotionWindow) {w : DomainWindow}
    (hwindow : w.window = cfg.promotionWindow) (hlength : w.nObservations ≤ cfg.promotionWindow)
    (disagreement : Bool) : (w.push disagreement).window = cfg.promotionWindow ∧
      (w.push disagreement).nObservations ≤ cfg.promotionWindow := by
  refine ⟨hwindow, ?_⟩
  unfold DomainWindow.nObservations DomainWindow.push at *
  by_cases hfull : w.buf.length = w.window
  · simp only [hfull, ↓reduceIte, List.length_append, List.length_tail, List.length_singleton]
    omega
  · simp only [hfull, ↓reduceIte, List.length_append, List.length_singleton]
    omega

theorem WindowsBounded.windowOr (inv : WindowsBounded cfg s) (domain : String) :
    (s.windowOr domain (DomainWindow.new cfg.promotionWindow)).window = cfg.promotionWindow ∧
      (s.windowOr domain (DomainWindow.new cfg.promotionWindow)).nObservations ≤
        cfg.promotionWindow := by
  unfold ShadowState.windowOr
  cases hwindow : s.windows domain with
  | none => exact ⟨rfl, Nat.zero_le _⟩
  | some w => exact inv.bounded domain w hwindow

/-- The window of the event's domain after its observation was pushed. -/
def pushed (cfg : ShadowAuditorConfig) (s : ShadowState) (ev : ShadowAuditorResultEvent) :
    DomainWindow :=
  (s.windowOr ev.domain (DomainWindow.new cfg.promotionWindow)).push ev.disagreement

/-- The demotion check finds the window that was just pushed, with its old capacity. -/
theorem windowOr_update (s : ShadowState) (domain : String) (w fresh : DomainWindow) :
    ShadowState.windowOr { s with windows := Function.update s.windows domain (some w) } domain
      fresh = w := by
  simp [ShadowState.windowOr]

/-- What one event does while its window is short of the demotion window: the observation
is pushed, and at most a promotion follows. -/
theorem processEvent_of_short (ev : ShadowAuditorResultEvent)
    (short : (pushed cfg s ev).nObservations < cfg.demotionWindow) :
    (processEvent cfg s ev).windows =
        Function.update s.windows ev.domain (some (pushed cfg s ev)) ∧
      s.promotedAuditDomains ⊆ (processEvent cfg s ev).promotedAuditDomains := by
  have hdemote : decide (cfg.demotionWindow ≤ (pushed cfg s ev).nObservations) = false := by
    simpa using short
  unfold pushed at hdemote
  simp only [processEvent, windowOr_update, hdemote, Bool.false_and, Bool.false_eq_true,
    ↓reduceIte, ite_self]
  split
  next => exact ⟨rfl, Finset.subset_insert _ _⟩
  next => exact ⟨rfl, Finset.Subset.refl _⟩

theorem WindowsBounded.step (inv : WindowsBounded cfg s) (positive : 0 < cfg.promotionWindow)
    (ev : ShadowAuditorResultEvent) :
    WindowsBounded cfg (processEvent cfg s ev) ∧
      s.promotedAuditDomains ⊆ (processEvent cfg s ev).promotedAuditDomains := by
  obtain ⟨hwindow, hlength⟩ := inv.windowOr ev.domain
  have hpushed := push_bounded positive hwindow hlength ev.disagreement
  have hshort : (pushed cfg s ev).nObservations < cfg.demotionWindow := by
    have hbound := hpushed.2
    unfold pushed ShadowAuditorConfig.demotionWindow
    omega
  obtain ⟨hwindows, hpromoted⟩ := processEvent_of_short ev hshort
  refine ⟨⟨?_⟩, hpromoted⟩
  intro domain w hw
  rw [hwindows] at hw
  by_cases hsame : domain = ev.domain
  · subst hsame
    simp only [Function.update_self, Option.some.injEq] at hw
    subst hw
    exact hpushed
  · rw [Function.update_of_ne hsame] at hw
    exact inv.bounded domain w hw

/-- Over a whole stream no promoted domain is removed. -/
theorem WindowsBounded.run (inv : WindowsBounded cfg s) (positive : 0 < cfg.promotionWindow)
    (events : List ShadowAuditorResultEvent) :
    WindowsBounded cfg (processEvents cfg s events) ∧
      s.promotedAuditDomains ⊆ (processEvents cfg s events).promotedAuditDomains := by
  induction events generalizing s with
  | nil => exact ⟨inv, Finset.Subset.refl _⟩
  | cons ev rest ih =>
      obtain ⟨hinv, hpromoted⟩ := inv.step positive ev
      obtain ⟨hrun, hrest⟩ := ih hinv
      exact ⟨hrun, hpromoted.trans hrest⟩

/-! ## Batches -/

def runBatches (cfg : ShadowAuditorConfig) (acc : ShadowAuditorAccumulator)
    (batches : List (List ShadowAuditorResultEvent)) : ShadowAuditorAccumulator :=
  batches.foldl (process cfg) acc

/-- A batch does what its events do one by one. -/
theorem process_loop (acc : ShadowAuditorAccumulator) (events : List ShadowAuditorResultEvent) :
    (process cfg acc events).loop = processEvents cfg acc.loop events := by
  unfold process
  split
  next hempty =>
    rw [List.isEmpty_iff.mp hempty]
    rfl
  next => rfl

theorem processEvents_append (s : ShadowState) (first second : List ShadowAuditorResultEvent) :
    processEvents cfg s (first ++ second) =
      processEvents cfg (processEvents cfg s first) second := by
  simp only [processEvents, List.foldl_append]

theorem runBatches_loop (acc : ShadowAuditorAccumulator)
    (batches : List (List ShadowAuditorResultEvent)) :
    (runBatches cfg acc batches).loop = processEvents cfg acc.loop batches.flatten := by
  unfold runBatches
  induction batches generalizing acc with
  | nil => rfl
  | cons batch rest ih =>
      rw [List.foldl_cons, ih, process_loop, List.flatten_cons, processEvents_append]

/-! ## The demotion law -/

/-- The observations of a domain in a stream. -/
def observations (domain : String) (events : List ShadowAuditorResultEvent) : List Bool :=
  (events.filter (·.domain == domain)).map (·.disagreement)

/-- The promoted set after a stream of events that starts with the persisted set. -/
def promotedAfter (cfg : ShadowAuditorConfig) (persisted : Finset String)
    (events : List ShadowAuditorResultEvent) : Finset String :=
  (processEvents cfg (ShadowAuditorAccumulator.new persisted).loop events).promotedAuditDomains

/-- The last `2W` observations of the domain are those of `recent`, whose last event is the
domain's; all of them came while the domain was promoted, and their rate is below half of
the promotion threshold. -/
structure DemotionDue (cfg : ShadowAuditorConfig) (persisted : Finset String)
    (before recent : List ShadowAuditorResultEvent) (domain : String) : Prop where
  last : ∃ front ev, recent = front ++ [ev] ∧ ev.domain = domain
  full : (observations domain recent).length = 2 * cfg.promotionWindow
  promoted : ∀ p rest, recent = p ++ rest → rest ≠ [] →
    domain ∈ promotedAfter cfg persisted (before ++ p)
  low : disagreementRate (observations domain recent) < cfg.promotionThreshold / 2

/-- Whenever a demotion is due, processing the stream has removed the domain. -/
def DemotionLaw (cfg : ShadowAuditorConfig) : Prop :=
  ∀ persisted batches before recent domain, batches.flatten = before ++ recent →
    DemotionDue cfg persisted before recent domain →
    domain ∉
      (runBatches cfg (ShadowAuditorAccumulator.new persisted) batches).loop.promotedAuditDomains

theorem runBatches_promoted (persisted : Finset String)
    (batches : List (List ShadowAuditorResultEvent)) :
    (runBatches cfg (ShadowAuditorAccumulator.new persisted) batches).loop.promotedAuditDomains =
      promotedAfter cfg persisted batches.flatten := by
  rw [runBatches_loop]
  rfl

theorem start_bounded (cfg : ShadowAuditorConfig) (persisted : Finset String) :
    WindowsBounded cfg (ShadowAuditorAccumulator.new persisted).loop :=
  ⟨by simp [ShadowAuditorAccumulator.new]⟩

/-- A stream only adds to the promoted set. -/
theorem promotedAfter_subset (positive : 0 < cfg.promotionWindow) (persisted : Finset String)
    (first second : List ShadowAuditorResultEvent) :
    promotedAfter cfg persisted first ⊆ promotedAfter cfg persisted (first ++ second) := by
  have hfirst := ((start_bounded cfg persisted).run positive first).1
  unfold promotedAfter
  rw [processEvents_append]
  exact (hfirst.run positive second).2

theorem disagreementRate_nonneg (l : List Bool) : 0 ≤ disagreementRate l := by
  unfold disagreementRate
  split
  next => exact le_refl 0
  next => exact div_nonneg (Nat.cast_nonneg _) (Nat.cast_nonneg _)

theorem disagreementRate_agreements (n : Nat) : disagreementRate (List.replicate n false) = 0 := by
  unfold disagreementRate
  split
  next => rfl
  next => simp [List.countP_replicate]

/-- A domain that was persisted as promoted, with agreeing observations only. -/
theorem agreeing_stream_due (positive : 0 < cfg.promotionWindow)
    (threshold : 0 < cfg.promotionThreshold) (domain : String) :
    DemotionDue cfg {domain} []
      (List.replicate (2 * cfg.promotionWindow) ⟨domain, false⟩) domain := by
  have hobservations : observations domain
      (List.replicate (2 * cfg.promotionWindow) ⟨domain, false⟩) =
        List.replicate (2 * cfg.promotionWindow) false := by
    simp [observations]
  refine ⟨?_, ?_, ?_, ?_⟩
  · refine ⟨List.replicate (2 * cfg.promotionWindow - 1) ⟨domain, false⟩, ⟨domain, false⟩, ?_, rfl⟩
    rw [← List.replicate_succ']
    congr 1
    omega
  · rw [hobservations, List.length_replicate]
  · intro p _ _ _
    have hstart : domain ∈ promotedAfter cfg {domain} [] := Finset.mem_singleton_self domain
    simpa using promotedAfter_subset positive {domain} [] p hstart
  · rw [hobservations, disagreementRate_agreements]
    linarith

/-- For every configuration with a promotion window of at least 1, auto-demotion on or off:
the demotion law holds exactly when the promotion threshold is not positive, so that no
rate lies below half of it. And wherever a demotion is due, the domain stays promoted. -/
theorem demotion_law_iff (cfg : ShadowAuditorConfig) (positive : 1 ≤ cfg.promotionWindow) :
    (DemotionLaw cfg ↔ cfg.promotionThreshold ≤ 0) ∧
      ∀ persisted batches before recent domain, batches.flatten = before ++ recent →
        DemotionDue cfg persisted before recent domain →
        domain ∈ (runBatches cfg (ShadowAuditorAccumulator.new persisted)
          batches).loop.promotedAuditDomains := by
  have hstays : ∀ persisted batches before recent domain, batches.flatten = before ++ recent →
      DemotionDue cfg persisted before recent domain →
      domain ∈ (runBatches cfg (ShadowAuditorAccumulator.new persisted)
        batches).loop.promotedAuditDomains := by
    intro persisted batches before recent domain hstream due
    obtain ⟨front, ev, hrecent, -⟩ := due.last
    have hbefore := due.promoted [] recent rfl (by simp [hrecent])
    rw [runBatches_promoted, hstream]
    rw [List.append_nil] at hbefore
    exact promotedAfter_subset positive persisted before recent hbefore
  refine ⟨⟨?_, ?_⟩, hstays⟩
  · intro law
    by_contra hthreshold
    have hdue := agreeing_stream_due positive (not_le.mp hthreshold) "security"
    have hstream : [List.replicate (2 * cfg.promotionWindow)
        (⟨"security", false⟩ : ShadowAuditorResultEvent)].flatten =
          [] ++ List.replicate (2 * cfg.promotionWindow) ⟨"security", false⟩ := by simp
    exact law _ _ _ _ _ hstream hdue (hstays _ _ _ _ _ hstream hdue)
  · intro hthreshold persisted batches before recent domain _ due
    have hlow := due.low
    have hrate := disagreementRate_nonneg (observations domain recent)
    linarith

section Example

/-- Auto-demotion with the threshold of the reference configuration, for a window of 2. -/
def smallWindow : ShadowAuditorConfig := ⟨5 / 100, 2, true⟩

theorem small_window_stays_promoted :
    smallWindow.autoDemotion = true ∧ ¬ DemotionLaw smallWindow := by
  refine ⟨rfl, ?_⟩
  rw [(demotion_law_iff smallWindow (by decide)).1]
  norm_num [smallWindow]

/-- A domain is promoted after two disagreements; four agreements later, at a rate of 0, it
still is. -/
theorem agreements_do_not_demote :
    "security" ∈ (runBatches smallWindow (ShadowAuditorAccumulator.new ∅)
        [[⟨"security", true⟩, ⟨"security", true⟩]]).loop.promotedAuditDomains ∧
      "security" ∈ (runBatches smallWindow (ShadowAuditorAccumulator.new ∅)
        [[⟨"security", true⟩, ⟨"security", true⟩],
          List.replicate 4 ⟨"security", false⟩]).loop.promotedAuditDomains ∧
      DemotionDue smallWindow ∅ [⟨"security", true⟩, ⟨"security", true⟩]
        (List.replicate 4 ⟨"security", false⟩) "security" := by
  have hstart : "security" ∈
      promotedAfter smallWindow ∅ [⟨"security", true⟩, ⟨"security", true⟩] := by
    decide +kernel
  have hstays : ∀ p, "security" ∈ promotedAfter smallWindow ∅
      ([⟨"security", true⟩, ⟨"security", true⟩] ++ p) :=
    fun p => promotedAfter_subset (by decide) ∅ _ p hstart
  refine ⟨?_, ?_, ?_⟩
  · rw [runBatches_promoted]
    exact hstart
  · rw [runBatches_promoted]
    exact hstays (List.replicate 4 ⟨"security", false⟩)
  · refine ⟨⟨List.replicate 3 ⟨"security", false⟩, ⟨"security", false⟩, rfl, rfl⟩, by decide,
      fun p _ _ _ => hstays p, ?_⟩
    have hobservations : observations "security" (List.replicate 4 ⟨"security", false⟩) =
        List.replicate 4 false := by decide
    rw [hobservations, disagreementRate_agreements]
    norm_num [smallWindow]

end Example

end ControlPlane.Guarantees.ShadowDemotion
