import ControlPlane.Source.Engine.ThinkingLoop

/-!
# What the thinking loop keeps

Each iteration replaces the report by what its own synthesis came to, and a synthesis that
fails comes to the default report. So what the loop learned survives exactly if the last
iteration that it runs has something to say, or if there was nothing to lose.
-/
namespace ControlPlane.Guarantees.ThinkingKeeps

open Lib Source.Engine.Thinking
open Source.Constraints (ParsedFloat)

variable {K : Type} [Field K] [LinearOrder K]

/-! ## Statement -/

/-- The syntheses of a run that succeeded, in order. -/
def successes (input : ThinkingLoopInput K) : List (ThinkingReport K) :=
  if input.cfg.enabled then (loopEnd input).syntheses.filterMap id else []

/-- What a run learned against the report it returns. -/
structure KeepsLearned (input : ThinkingLoopInput K) : Prop where
  understood : (∃ r ∈ successes input, r.sharedUnderstanding ≠ "") →
    (run input).sharedUnderstanding ≠ ""
  /-- Also where the syntheses after it failed. -/
  lastSuccess : ∀ r, (successes input).getLast? = some r →
    (run input).sharedUnderstanding = r.sharedUnderstanding ∧
      (run input).tensions = r.tensions ∧ (run input).coverageScore = r.coverageScore

section Iterations

variable (input : ThinkingLoopInput K)

/-- The report with which iteration `n` starts. -/
def reportBefore : Nat → ThinkingReport K
  | 0 => .default
  | n + 1 => nextReport input n (reportBefore n)

def synthesisAt (n : Nat) : Option (ThinkingReport K) :=
  synthesisOf input n (reportBefore input n)

/-- The successful syntheses before iteration `n`. -/
def successesBefore (n : Nat) : List (ThinkingReport K) :=
  (List.range n).filterMap (synthesisAt input)

/-- The cap is reached, or the thresholds and the quality gate let the loop stop. -/
def Exits (n : Nat) : Prop :=
  input.cfg.maxIterations ≤ n + 1 ∨ continues input n (reportBefore input (n + 1)) = false

/-- The last iteration the loop runs. -/
structure IsLast (n : Nat) : Prop where
  inRange : n < input.cfg.maxIterations
  exits : Exits input n
  first : ∀ m < n, ¬ Exits input m

/-- Nothing is lost with iteration `n`: its synthesis has an understanding, or none before
it has and, should it fail, the last success has nothing else to carry either. -/
def NothingLost (n : Nat) : Prop :=
  (∃ r, synthesisAt input n = some r ∧ r.sharedUnderstanding ≠ "") ∨
    (∀ r ∈ successesBefore input n, r.sharedUnderstanding = "") ∧
      (synthesisAt input n = none →
        ∀ r, (successesBefore input n).getLast? = some r →
          r.tensions = [] ∧ r.coverageScore = .finite 0)

end Iterations

/-! ## The iterations of a run -/

section Run

variable {input : ThinkingLoopInput K}

theorem iterate_next {n : Nat} {s s' : LoopState K} (h : iterate input n s = .next s') :
    ¬ input.cfg.maxIterations ≤ n + 1 ∧
      continues input n (nextReport input n s.report) = true ∧
      s'.report = nextReport input n s.report ∧
      s'.syntheses = s.syntheses ++ [synthesisOf input n s.report] := by
  simp only [iterate] at h
  split at h
  · cases h
  · next hcap =>
    split at h
    · next hgo =>
      cases h
      exact ⟨hcap, hgo, rfl, rfl⟩
    · cases h

theorem iterate_stop {n : Nat} {s s' : LoopState K} (h : iterate input n s = .stop s') :
    (input.cfg.maxIterations ≤ n + 1 ∨
        continues input n (nextReport input n s.report) = false) ∧
      s'.report = nextReport input n s.report ∧
      s'.syntheses = s.syntheses ++ [synthesisOf input n s.report] := by
  simp only [iterate] at h
  split at h
  · next hcap =>
    cases h
    exact ⟨Or.inl hcap, rfl, rfl⟩
  · split at h
    · cases h
    · next hstop =>
      cases h
      exact ⟨Or.inr (Bool.eq_false_iff.mpr hstop), rfl, rfl⟩

/-- The variables of the loop before iteration `n`. -/
structure AtIteration (input : ThinkingLoopInput K) (n : Nat) (s : LoopState K) : Prop where
  report : s.report = reportBefore input n
  syntheses : s.syntheses = (List.range n).map (synthesisAt input)
  goes : ∀ m < n, ¬ Exits input m

theorem atIteration_of_roundStart {n : Nat} {s : LoopState K}
    (h : roundStart (iterate input) 0 start n = some s) : AtIteration input n s := by
  have hstep : ∀ i (s s' : LoopState K), AtIteration input i s → iterate input i s = .next s' →
      AtIteration input (i + 1) s' := by
    intro i s s' hi hnext
    obtain ⟨hcap, hgo, hreport, hsyntheses⟩ := iterate_next hnext
    refine ⟨?_, ?_, ?_⟩
    · rw [hreport, hi.report, reportBefore]
    · rw [hsyntheses, hi.syntheses, List.range_succ, List.map_append, List.map_singleton,
        synthesisAt, hi.report]
    · intro m hm
      rcases Nat.lt_succ_iff_lt_or_eq.mp hm with hlt | rfl
      · exact hi.goes m hlt
      · intro hexits
        rcases hexits with hreached | hstops
        · exact hcap hreached
        · rw [reportBefore, ← hi.report, hgo] at hstops
          cases hstops
  have hround := roundStart_holds hstep (⟨rfl, rfl, fun m hm => absurd hm (Nat.not_lt_zero m)⟩ :
    AtIteration input 0 start) h
  rwa [Nat.zero_add] at hround

/-- Unless there is no iteration to run, the loop is left in its last one. -/
theorem loopEnd_isLast (h : 0 < input.cfg.maxIterations) :
    ∃ n, IsLast input n ∧ (loopEnd input).report = reportBefore input (n + 1) ∧
      (loopEnd input).syntheses = (List.range (n + 1)).map (synthesisAt input) := by
  unfold loopEnd
  cases hloop : forRounds (iterate input) input.cfg.maxIterations 0 start with
  | next s =>
      -- The last iteration the cap allows always stops.
      obtain ⟨m, hm⟩ : ∃ m, input.cfg.maxIterations = m + 1 := ⟨_, (Nat.succ_pred_eq_of_pos h).symm⟩
      rw [forRounds_eq_next, hm] at hloop
      obtain ⟨s₀, -, hnext⟩ := roundStart_succ_eq_some.mp hloop
      have hcap := (iterate_next hnext).1
      omega
  | stop s =>
      obtain ⟨n, s₀, hn, hstart, hstop⟩ := forRounds_eq_stop.mp hloop
      rw [Nat.zero_add] at hstop
      have hat := atIteration_of_roundStart hstart
      obtain ⟨hexits, hreport, hsyntheses⟩ := iterate_stop hstop
      rw [hat.report] at hexits hreport hsyntheses
      refine ⟨n, ⟨hn, hexits, hat.goes⟩, hreport, ?_⟩
      rw [hsyntheses, hat.syntheses, List.range_succ, List.map_append, List.map_singleton,
        synthesisAt]

theorem isLast_unique {n m : Nat} (hn : IsLast input n) (hm : IsLast input m) : n = m := by
  rcases Nat.lt_trichotomy n m with hlt | heq | hgt
  · exact absurd hn.exits (hm.first n hlt)
  · exact heq
  · exact absurd hm.exits (hn.first m hgt)

theorem loopEnd_of_noIterations (h : input.cfg.maxIterations = 0) : loopEnd input = start := by
  unfold loopEnd
  rw [h]
  rfl

/-! ## The report and the last synthesis -/

theorem run_fields (henabled : input.cfg.enabled = true) :
    (run input).sharedUnderstanding = (loopEnd input).report.sharedUnderstanding ∧
      (run input).tensions = (loopEnd input).report.tensions ∧
      (run input).coverageScore = (loopEnd input).report.coverageScore := by
  rw [run, if_pos henabled]
  exact ⟨rfl, rfl, rfl⟩

/-- What an iteration says is what its synthesis came to. -/
theorem reportBefore_succ (n : Nat) :
    (reportBefore input (n + 1)).sharedUnderstanding =
        ((synthesisAt input n).getD .default).sharedUnderstanding ∧
      (reportBefore input (n + 1)).tensions = ((synthesisAt input n).getD .default).tensions ∧
      (reportBefore input (n + 1)).coverageScore =
        ((synthesisAt input n).getD .default).coverageScore :=
  ⟨rfl, rfl, rfl⟩

theorem keepsLearned_of_noSuccess (h : successes input = []) : KeepsLearned input := by
  refine ⟨?_, ?_⟩
  · intro ⟨r, hr, _⟩
    rw [h] at hr
    cases hr
  · intro r hr
    rw [h] at hr
    cases hr

theorem successes_of_isLast (henabled : input.cfg.enabled = true) {n : Nat}
    (h : (loopEnd input).syntheses = (List.range (n + 1)).map (synthesisAt input)) :
    successes input = successesBefore input n ++ (synthesisAt input n).toList := by
  rw [successes, if_pos henabled, h, List.filterMap_map, Function.id_comp, List.range_succ,
    List.filterMap_append, successesBefore]
  cases hn : synthesisAt input n with
  | none => rw [List.filterMap_cons_none hn, List.filterMap_nil, Option.toList_none]
  | some r => rw [List.filterMap_cons_some hn, List.filterMap_nil, Option.toList_some]

/-- The fields of the returned report, by what the last synthesis came to. -/
theorem run_fields_of_isLast (henabled : input.cfg.enabled = true) {n : Nat}
    (h : (loopEnd input).report = reportBefore input (n + 1)) :
    (run input).sharedUnderstanding =
        ((synthesisAt input n).getD .default).sharedUnderstanding ∧
      (run input).tensions = ((synthesisAt input n).getD .default).tensions ∧
      (run input).coverageScore = ((synthesisAt input n).getD .default).coverageScore := by
  obtain ⟨hunderstanding, htensions, hcoverage⟩ := run_fields henabled
  rw [hunderstanding, htensions, hcoverage, h]
  exact reportBefore_succ n

/-- Behind a failed synthesis the run reports nothing. -/
theorem keepsLearned_iff_of_failed (henabled : input.cfg.enabled = true) {n : Nat}
    (hreport : (loopEnd input).report = reportBefore input (n + 1))
    (hsyntheses : (loopEnd input).syntheses = (List.range (n + 1)).map (synthesisAt input))
    (hfailed : synthesisAt input n = none) : KeepsLearned input ↔ NothingLost input n := by
  have hsuccesses := successes_of_isLast henabled hsyntheses
  obtain ⟨hunderstanding, htensions, hcoverage⟩ := run_fields_of_isLast henabled hreport
  rw [hfailed, Option.toList_none, List.append_nil] at hsuccesses
  rw [hfailed, Option.getD_none] at hunderstanding htensions hcoverage
  constructor
  · intro h
    refine Or.inr ⟨?_, ?_⟩
    · intro r hr
      by_contra hne
      exact h.understood ⟨r, hsuccesses ▸ hr, hne⟩ hunderstanding
    · intro _ r hr
      obtain ⟨-, ht, hc⟩ := h.lastSuccess r (hsuccesses ▸ hr)
      exact ⟨ht.symm.trans htensions, hc.symm.trans hcoverage⟩
  · intro h
    rcases h with ⟨r, hr, _⟩ | ⟨hempty, hblank⟩
    · rw [hfailed] at hr
      cases hr
    · refine ⟨?_, ?_⟩
      · intro ⟨r, hr, hne⟩
        exact absurd (hempty r (hsuccesses ▸ hr)) hne
      · intro r hr
        rw [hsuccesses] at hr
        obtain ⟨ht, hc⟩ := hblank hfailed r hr
        refine ⟨?_, htensions.trans ht.symm, hcoverage.trans hc.symm⟩
        exact hunderstanding.trans (hempty r (List.mem_of_getLast? hr)).symm

/-- Behind a successful synthesis the run reports what it says. -/
theorem keepsLearned_iff_of_success (henabled : input.cfg.enabled = true) {n : Nat}
    (hreport : (loopEnd input).report = reportBefore input (n + 1))
    (hsyntheses : (loopEnd input).syntheses = (List.range (n + 1)).map (synthesisAt input))
    {new : ThinkingReport K} (hlast : synthesisAt input n = some new) :
    KeepsLearned input ↔ NothingLost input n := by
  have hsuccesses := successes_of_isLast henabled hsyntheses
  obtain ⟨hunderstanding, htensions, hcoverage⟩ := run_fields_of_isLast henabled hreport
  rw [hlast, Option.toList_some] at hsuccesses
  rw [hlast, Option.getD_some] at hunderstanding htensions hcoverage
  have hkept : ∀ r, (successes input).getLast? = some r →
      (run input).sharedUnderstanding = r.sharedUnderstanding ∧
        (run input).tensions = r.tensions ∧ (run input).coverageScore = r.coverageScore := by
    intro r hr
    rw [hsuccesses, List.getLast?_append, List.getLast?_singleton, Option.some_or,
      Option.some.injEq] at hr
    exact hr ▸ ⟨hunderstanding, htensions, hcoverage⟩
  constructor
  · intro h
    by_cases hnew : new.sharedUnderstanding = ""
    · refine Or.inr ⟨?_, fun hnone => absurd (hlast.symm.trans hnone) (Option.some_ne_none new)⟩
      intro r hr
      by_contra hne
      have hmem : r ∈ successes input := hsuccesses ▸ List.mem_append_left _ hr
      exact h.understood ⟨r, hmem, hne⟩ (hunderstanding.trans hnew)
    · exact Or.inl ⟨new, hlast, hnew⟩
  · intro h
    refine ⟨?_, hkept⟩
    intro ⟨r, hr, hne⟩
    rw [hunderstanding]
    rcases h with ⟨new', hnew', hsays⟩ | ⟨hempty, _⟩
    · rw [hlast] at hnew'
      cases hnew'
      exact hsays
    · rw [hsuccesses, List.mem_append, List.mem_singleton] at hr
      rcases hr with hearlier | rfl
      · exact absurd (hempty r hearlier) hne
      · exact hne

theorem keepsLearned_iff_nothingLost (henabled : input.cfg.enabled = true) {n : Nat}
    (hreport : (loopEnd input).report = reportBefore input (n + 1))
    (hsyntheses : (loopEnd input).syntheses = (List.range (n + 1)).map (synthesisAt input)) :
    KeepsLearned input ↔ NothingLost input n := by
  cases hlast : synthesisAt input n with
  | none => exact keepsLearned_iff_of_failed henabled hreport hsyntheses hlast
  | some new => exact keepsLearned_iff_of_success henabled hreport hsyntheses hlast

end Run

/-! ## The guarantee -/

/-- For every number of iterations and whatever the calls come to. -/
theorem keepsLearned_iff (input : ThinkingLoopInput K) :
    KeepsLearned input ↔
      (input.cfg.enabled = true → ∀ n, IsLast input n → NothingLost input n) := by
  by_cases henabled : input.cfg.enabled = true
  · rcases Nat.eq_zero_or_pos input.cfg.maxIterations with hzero | hpos
    · have hnone : successes input = [] := by
        rw [successes, if_pos henabled, loopEnd_of_noIterations hzero]
        rfl
      refine ⟨fun _ _ n hn => ?_, fun _ => keepsLearned_of_noSuccess hnone⟩
      have hrange := hn.inRange
      omega
    · obtain ⟨n, hn, hreport, hsyntheses⟩ := loopEnd_isLast hpos
      rw [keepsLearned_iff_nothingLost henabled hreport hsyntheses]
      constructor
      · intro h _ m hm
        rwa [isLast_unique hm hn]
      · intro h
        exact h henabled n hn
  · have hnone : successes input = [] := by rw [successes, if_neg henabled]
    exact ⟨fun _ hon => absurd hon henabled, fun _ => keepsLearned_of_noSuccess hnone⟩

/-! ## A failure after a success -/

/-- The merges of the second iteration fail. -/
def failingSecond : ThinkingLoopInput ℚ where
  cfg :=
    { enabled := true
      maxIterations := 2
      coverageThreshold := 3 / 4
      convergenceThreshold := 9 / 10
      oracleConfidenceBonus := 1 / 10
      synthesisTournamentMaxRoundTokens := 32768
      qualityGateMaxTokens := 64 }
  externals := Source.Constraints.asciiExternals
  sqrt := id
  embeddingModel := none
  synthesisSystem := "Merge."
  synthesisPairwise := "Challenger: \x7bproposal_b\x7d"
  gateSystem := "Judge."
  gateTask := "\x7bunderstanding\x7d"
  format2 _ := "0.70"
  formatCoverage _ := "0.50"
  fetchKnowledge _ _ := []
  selectArchetypes _ _ := ["architect", "reviewer"]
  brainstorm _ _ name := ⟨name, "problem", "solution", 7 / 10, false⟩
  merge iteration _ _ _ := if iteration = 0 then some "Use a ledger." else none
  gate _ _ := none

/-- The first iteration understood something, the report returned nothing. -/
theorem understanding_lost :
    (successes failingSecond).map (·.sharedUnderstanding) = ["Use a ledger."] ∧
      (run failingSecond).sharedUnderstanding = "" ∧ ¬ KeepsLearned failingSecond := by
  have hlearned : (successes failingSecond).map (·.sharedUnderstanding) = ["Use a ledger."] := by
    decide +kernel
  have hlost : (run failingSecond).sharedUnderstanding = "" := by decide +kernel
  refine ⟨hlearned, hlost, fun h => h.understood ?_ hlost⟩
  have hmem : "Use a ledger." ∈ (successes failingSecond).map (·.sharedUnderstanding) := by
    simp [hlearned]
  obtain ⟨r, hr, hsays⟩ := List.mem_map.mp hmem
  exact ⟨r, hr, hsays ▸ by decide⟩

end ControlPlane.Guarantees.ThinkingKeeps
