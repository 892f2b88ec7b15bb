import ControlPlane.Lib.Runs
import ControlPlane.Source.Engine.ContextRuns

/-!
# Operator input and induction hints in the next wave

`inject_wave_continue` and `apply_induction_result` extend the retry context in
front of a decision; a decision that writes the retry context itself starts from
the base text and drops what they added. The text of such a decision does not
depend on the retry context, so whatever an operator adds is lost exactly there.
-/
namespace ControlPlane.Guarantees.OperatorInput

open Source Source.MapeK Source.Config Source.Constraints Source.Engine

/-! ## Decisions that write the context -/

/-- A proposal pruned so far violates a hard constraint. -/
def hardViolated (c : MapeKController) : Bool :=
  c.allPruned.any fun e => e.violatedConstraints.any fun v => decide (v.severityLabel = .hard)

/-- The wave is answered from the base text: a hallucination hint, an evicted
winner, or a retry of the policy with hard violations to repair. -/
def rewrites (lib : ControllerLib) (c : MapeKController) (retryCount : Nat) :
    PipelineOutcome → Bool
  | .earlyExit reason => exitRouted lib c retryCount &&
      match reason with
      | .hallucinationDetected _ _ _ => true
      | .oraclePostSelectionBlocked _ => true
      | reason => asksPolicy lib c retryCount reason && hardViolated c
  | _ => false

theorem addViolation_ne_nil (v : Verification.ConstraintViolation)
    (entries : List (String × ConstraintEntry)) : addViolation v entries ≠ [] := by
  cases entries with
  | nil => simp [addViolation]
  | cons entry rest =>
      simp only [addViolation]
      split <;> simp

theorem foldl_addViolation_eq_nil {violations : List Verification.ConstraintViolation}
    {entries : List (String × ConstraintEntry)} :
    violations.foldl (fun acc v => addViolation v acc) entries = [] ↔
      violations = [] ∧ entries = [] := by
  induction violations generalizing entries with
  | nil => simp
  | cons v rest ih =>
      rw [List.foldl_cons, ih]
      simp [addViolation_ne_nil]

theorem perConstraint_eq_nil (c : MapeKController) :
    perConstraint c.allPruned = [] ↔ hardViolated c = false := by
  rw [perConstraint, foldl_addViolation_eq_nil]
  simp only [hardViolated, List.filter_eq_nil_iff, List.mem_flatMap, and_true,
    List.any_eq_false, decide_eq_true_eq]
  constructor
  · rintro h e hpruned hviolated
    obtain ⟨v, hv, hhard⟩ := List.any_eq_true.mp hviolated
    exact h v ⟨e, hpruned, hv⟩ (decide_eq_true_eq.mp hhard)
  · rintro h v ⟨e, hpruned, hv⟩ hhard
    exact h e hpruned (List.any_eq_true.mpr ⟨v, hv, decide_eq_true_eq.mpr hhard⟩)

/-- With nothing tried, the policy has targets exactly for hard violations. -/
theorem policyAction_untried {lib : ControllerLib}
    (walks : ∀ entries, (lib.walkEntries entries).Perm entries) {c : MapeKController}
    (untried : c.triedTopologies = []) (retryCount : Nat) :
    if hardViolated c then
      ∃ targets, targets ≠ [] ∧ c.policyAction lib retryCount = .retryWithTargets .ensemble targets
    else (∃ factor, c.policyAction lib retryCount = .retryWithTauReduction .ensemble factor) ∨
      c.policyAction lib retryCount = .retry .ensemble := by
  have hfirst : frontier.find? (fun candidate => !hasTried [] candidate) = some .ensemble := rfl
  unfold MapeKController.policyAction retryPolicyDecide
  rw [untried, hfirst]
  dsimp only
  cases hviolated : hardViolated c with
  | true =>
      have hentries : perConstraint c.allPruned ≠ [] := by
        rw [ne_eq, perConstraint_eq_nil, hviolated]
        decide
      have hwalked : lib.walkEntries (perConstraint c.allPruned) ≠ [] := by
        intro hnil
        have hperm := walks (perConstraint c.allPruned)
        rw [hnil] at hperm
        exact hentries hperm.nil_eq.symm
      refine ⟨_, ?_, if_pos ?_⟩
      · rw [ne_eq, List.map_eq_nil_iff]
        exact hwalked
      · simpa using hentries
  | false =>
      rw [(perConstraint_eq_nil c).mpr hviolated]
      simp only [List.isEmpty_nil, Bool.not_true, Bool.false_eq_true, ↓reduceIte]
      split
      · exact Or.inl ⟨_, rfl⟩
      · exact Or.inr rfl

theorem policyText_isSome {lib : ControllerLib}
    (walks : ∀ entries, (lib.walkEntries entries).Perm entries) {c : MapeKController}
    (untried : c.triedTopologies = []) (retryCount : Nat) :
    (policyText lib c retryCount).isSome = hardViolated c := by
  have haction := policyAction_untried walks untried retryCount
  unfold policyText
  cases hviolated : hardViolated c with
  | true =>
      rw [hviolated, if_pos rfl] at haction
      obtain ⟨targets, hne, heq⟩ := haction
      rw [heq]
      cases targets with
      | nil => exact absurd rfl hne
      | cons target rest => rfl
  | false =>
      rw [hviolated, if_neg Bool.false_ne_true] at haction
      rcases haction with ⟨factor, heq⟩ | heq
      · rw [heq]
        rfl
      · rw [heq]
        rfl

theorem writtenContext_isSome {lib : ControllerLib}
    (walks : ∀ entries, (lib.walkEntries entries).Perm entries) {c : MapeKController}
    (untried : c.triedTopologies = []) (retryCount : Nat) (outcome : PipelineOutcome) :
    (writtenContext lib c retryCount (issued c retryCount outcome)).isSome =
      rewrites lib c retryCount outcome := by
  have hpolicy := policyText_isSome walks untried retryCount
  cases outcome with
  | resolved merge => rfl
  | fatal e => rfl
  | earlyExit reason =>
      cases reason with
      | hallucinationDetected hint tauValues warning =>
          simp only [writtenContext, issued, rewrites]
          cases exitRouted lib c retryCount <;> rfl
      | oraclePostSelectionBlocked summary =>
          simp only [writtenContext, issued, rewrites]
          cases exitRouted lib c retryCount <;> rfl
      | _ =>
          simp only [writtenContext, issued, rewrites, ← hpolicy]
          cases exitRouted lib c retryCount with
          | false => rfl
          | true =>
              simp only [↓reduceIte, Bool.true_and]
              split
              · rename_i asks
                rw [asks, Bool.true_and]
              · rename_i asks
                rw [Bool.not_eq_true] at asks
                rw [asks]
                rfl

/-! ## What reaches the next wave -/

/-- If the wave is retried, the active context of the next one has `part`. -/
def Delivered (settings : ContextSettings) (lib : ControllerLib) (c : MapeKController)
    (outcome : PipelineOutcome) (retryCount : Nat) (filterRatio : ℚ) (part : String) : Prop :=
  (c.decide lib (issued c retryCount outcome) retryCount filterRatio).1 = .retry →
    Contains (activeContext settings
      (c.decide lib (issued c retryCount outcome) retryCount filterRatio).2) part

/-- Whatever an operator or an induction result adds in `c` is delivered when the
other `calls` of the wave are made and the wave is decided. -/
structure InputReaches (settings : ContextSettings) (lib : ControllerLib) (c : MapeKController)
    (calls : List ControllerOp) (outcome : PipelineOutcome) (retryCount : Nat)
    (filterRatio : ℚ) : Prop where
  grounding : ∀ (grounding : String) (mandate : Option String),
    Text.trim grounding.toList ≠ [] →
    Delivered settings lib (replay lib (c.injectWaveContinue (some grounding) mandate) calls)
      outcome retryCount filterRatio grounding
  hint : ∀ (top : RetryHintPattern) (rest : List RetryHintPattern),
    Delivered settings lib (replay lib (applyInductionResult c (top :: rest)) calls)
      outcome retryCount filterRatio (inductionHint top)

section Decision

variable {settings : ContextSettings} {lib : ControllerLib} {c : MapeKController}
  {outcome : PipelineOutcome} {retryCount : Nat} {filterRatio : ℚ}

/-- The next wave of a controller whose retry context is set. -/
theorem nextContext_eq (text : String) :
    activeContext settings ((withContext c (some text)).decide lib
        (issued c retryCount outcome) retryCount filterRatio).2 =
      (writtenContext lib c retryCount (issued c retryCount outcome)).getD text ++
        (budgetHint settings c).getD "" := by
  have hhint : budgetHint settings (withContext c (some text)) = budgetHint settings c := rfl
  unfold activeContext
  rw [decide_context, decide_budgetHint, hhint, writtenContext_withContext]
  cases writtenContext lib c retryCount (issued c retryCount outcome) with
  | none => rfl
  | some written => rfl

theorem delivered_of_unwritten
    (unwritten : writtenContext lib c retryCount (issued c retryCount outcome) = none)
    {text part : String} (has : Contains text part) :
    Delivered settings lib (withContext c (some text)) outcome retryCount filterRatio part := by
  intro _
  rw [issued_withContext, nextContext_eq, unwritten]
  exact has.append_right _

/-- A decision that writes the context delivers only what it writes. -/
theorem contains_of_written {written : String}
    (hwritten : writtenContext lib c retryCount (issued c retryCount outcome) = some written)
    {text part : String}
    (delivered : Delivered settings lib (withContext c (some text)) outcome retryCount
      filterRatio part) :
    Contains (written ++ (budgetHint settings c).getD "") part := by
  unfold Delivered at delivered
  rw [issued_withContext] at delivered
  have hretry := delivered (decide_written_retry
    (by rw [writtenContext_withContext]; exact hwritten) filterRatio)
  rw [nextContext_eq, hwritten] at hretry
  exact hretry

end Decision

/-! ## Exactly when it reaches -/

/-- A grounding that is longer than a given text. -/
def longGrounding (n : Nat) : String := String.ofList (List.replicate (n + 1) 'x')

theorem longGrounding_nonBlank (n : Nat) : Text.trim (longGrounding n).toList ≠ [] := by
  have hstart : Text.trimStart (List.replicate (n + 1) 'x') = List.replicate (n + 1) 'x' := by
    rw [Text.trimStart, List.replicate_succ, List.dropWhile_cons_of_neg (by decide)]
  rw [longGrounding, String.toList_ofList, Text.trim, hstart, Text.trimEnd,
    List.reverse_replicate, List.replicate_succ, List.dropWhile_cons_of_neg (by decide)]
  simp

theorem longGrounding_not_contained (text : String) :
    ¬ Contains text (longGrounding text.toList.length) := by
  intro h
  have hlength := h.length_le
  rw [longGrounding, String.toList_ofList, List.length_replicate] at hlength
  omega

/-- A decision that writes its own text has no room for every grounding. -/
theorem input_lost_of_written {settings : ContextSettings} {lib : ControllerLib}
    {c : MapeKController} {calls : List ControllerOp}
    (undecided : ∀ op ∈ calls, isDecision op = false) {outcome : PipelineOutcome}
    {retryCount : Nat} {filterRatio : ℚ} {written : String}
    (hwritten : writtenContext lib (replay lib c calls) retryCount
      (issued (replay lib c calls) retryCount outcome) = some written) :
    ¬ InputReaches settings lib c calls outcome retryCount filterRatio := by
  intro reaches
  -- a grounding that does not fit into the text of the decision
  let grounding := longGrounding
    (written ++ (budgetHint settings (replay lib c calls)).getD "").toList.length
  obtain ⟨text, hinject, hhas⟩ :=
    injectWaveContinue_contains c (longGrounding_nonBlank _ : Text.trim grounding.toList ≠ []) none
  obtain ⟨text', hcalls, -⟩ := replay_keeps lib c undecided hhas
  have hdelivered := reaches.grounding grounding none (longGrounding_nonBlank _)
  rw [hinject, hcalls] at hdelivered
  exact longGrounding_not_contained _ (contains_of_written hwritten hdelivered)

theorem contextRun_triedTopologies (lib : ControllerLib) (cfg : H2AIConfig)
    (init : ControllerInit) (corpus : List ConstraintDoc) (ops : List ContextOp) :
    (contextRun lib (MapeKController.new cfg init corpus) ops).triedTopologies = [] :=
  congrArg TaskPart.triedTopologies (contextRun_taskPart lib _ ops)

/-- **Operator input reaches the next wave** exactly when the wave is not answered
from the base text: in every state of a run from `new()`, whatever else is called
before the decision. -/
theorem operator_input_reaches_iff (settings : ContextSettings) (lib : ControllerLib)
    (walks : ∀ entries, (lib.walkEntries entries).Perm entries)
    (cfg : H2AIConfig) (init : ControllerInit) (corpus : List ConstraintDoc)
    (ops : List ContextOp) (calls : List ControllerOp)
    (undecided : ∀ op ∈ calls, isDecision op = false)
    (outcome : PipelineOutcome) (retryCount : Nat) (filterRatio : ℚ) :
    InputReaches settings lib (contextRun lib (MapeKController.new cfg init corpus) ops) calls
        outcome retryCount filterRatio ↔
      rewrites lib (replay lib (contextRun lib (MapeKController.new cfg init corpus) ops) calls)
        retryCount outcome = false := by
  have hreached := contextRun_triedTopologies lib cfg init corpus ops
  generalize contextRun lib (MapeKController.new cfg init corpus) ops = c at hreached ⊢
  have huntried : (replay lib c calls).triedTopologies = [] :=
    (congrArg TaskPart.triedTopologies (replay_taskPart lib c calls)).trans hreached
  rw [← writtenContext_isSome walks huntried]
  constructor
  · intro reaches
    by_contra hsome
    rw [Bool.not_eq_false] at hsome
    obtain ⟨written, hwritten⟩ := Option.isSome_iff_exists.mp hsome
    exact input_lost_of_written undecided hwritten reaches
  · intro hnone
    have hunwritten := Option.isNone_iff_eq_none.mp (Option.isSome_eq_false_iff.mp hnone)
    constructor
    · intro grounding mandate nonBlank
      obtain ⟨text, hinject, hhas⟩ := injectWaveContinue_contains c nonBlank mandate
      obtain ⟨text', hcalls, hhas'⟩ := replay_keeps lib c undecided hhas
      rw [hinject, hcalls]
      exact delivered_of_unwritten hunwritten hhas'
    · intro top rest
      obtain ⟨text, happly, hhas⟩ := applyInductionResult_contains c top rest
      obtain ⟨text', hcalls, hhas'⟩ := replay_keeps lib c undecided hhas
      rw [happly, hcalls]
      exact delivered_of_unwritten hunwritten hhas'

def plainSettings : ContextSettings := ⟨"SYSTEM", ⟨false, 0, 0⟩⟩

/-- A wave whose only proposal was pruned for a hard constraint. -/
def violatedWave : WaveEvents :=
  { verificationEvents := []
    qualityMeasurement := none
    tauSpreadNext := none
    correlatedWarnings := []
    filterRatio := 0
    prunedEvents := [⟨"e1", "violates", "out",
      [⟨"auth", 0, .hard, none, "Use tokens.", none, [], none, none⟩], 0⟩]
    waveProposalTexts := []
    waveTokenCost := 0
    bestPassingConstraintReasons := [] }

def zeroSurvival : PipelineOutcome := .earlyExit (.zeroSurvival none none 0 [] [])

/-- A wave without survivors and without violations keeps the operator's text. -/
theorem plain_retry_keeps_input :
    InputReaches plainSettings asciiLib
        (contextRun asciiLib (MapeKController.new .reference plainInit []) []) [] zeroSurvival 0 1 :=
  (operator_input_reaches_iff plainSettings asciiLib (fun _ => List.Perm.refl _) .reference
    plainInit [] [] [] (fun _ h => absurd h List.not_mem_nil) zeroSurvival 0 1).mpr
    (by decide +kernel)

/-- The repair context of a violated constraint is built without the operator's text. -/
theorem repair_drops_grounding :
    ¬ InputReaches plainSettings asciiLib
        (contextRun asciiLib (MapeKController.new .reference plainInit [])
          [.call (.observe violatedWave 0)]) [] zeroSurvival 0 1 := by
  have hsome : (writtenContext asciiLib (contextRun asciiLib (MapeKController.new .reference
      plainInit []) [.call (.observe violatedWave 0)]) 0 (issued (contextRun asciiLib
        (MapeKController.new .reference plainInit []) [.call (.observe violatedWave 0)]) 0
        zeroSurvival)).isSome = true := by
    decide +kernel
  obtain ⟨written, hwritten⟩ := Option.isSome_iff_exists.mp hsome
  exact input_lost_of_written (fun _ h => absurd h List.not_mem_nil) hwritten

end ControlPlane.Guarantees.OperatorInput

/-!
# The base context over whole runs

The retry context replaces the bootstrap context whenever there is one. The
texts that the policy and the hallucination phase write start from the base text;
an injection or an induction hint into an empty retry context, and the summary of
an evicted winner, do not. A run without these three keeps the base in front of
every wave.
-/
namespace ControlPlane.Guarantees.BaseContext

open Lib Source Source.MapeK Source.Config Source.Constraints Source.Engine

/-- The active context has the bootstrap context, in one of its two compilations. -/
def HasBase (settings : ContextSettings) (c : MapeKController) : Prop :=
  Contains (activeContext settings c) settings.systemContext ∨
    Contains (activeContext settings c) c.systemContextWithRubric

/-- The step does not start a retry context from an empty text. -/
def KeepsBase (lib : ControllerLib) (c : MapeKController) : ContextOp → Prop
  | .call (.injectWaveContinue grounding mandate) =>
      c.retryContext.isSome ∨
        (MapeKController.nonBlank grounding = none ∧ MapeKController.nonBlank mandate = none)
  | .call (.decide (.earlyExit (.oraclePostSelectionBlocked _)) retryCount _) =>
      exitRouted lib c retryCount = false
  | .applyInductionResult patterns => c.retryContext.isSome ∨ patterns = []
  | _ => True

instance decidableKeepsBase (lib : ControllerLib) (c : MapeKController) (op : ContextOp) :
    Decidable (KeepsBase lib c op) := by
  unfold KeepsBase
  split <;> infer_instance

/-! ## One step -/

/-- A retry context, if there is one, has the base text. -/
def BaseKept (c : MapeKController) : Prop :=
  ∀ text, c.retryContext = some text → Contains text c.systemContextWithRubric

theorem BaseKept.hasBase {c : MapeKController} (kept : BaseKept c) (settings : ContextSettings) :
    HasBase settings c := by
  unfold HasBase activeContext
  cases hcontext : c.retryContext with
  | none => exact Or.inl ((contains_self _).append_right _)
  | some text => exact Or.inr ((kept text hcontext).append_right _)

/-- A retry of the policy starts from the base text. -/
theorem policyText_base {lib : ControllerLib} {c : MapeKController} {retryCount : Nat}
    {text : String} (h : policyText lib c retryCount = some text) :
    Contains text c.systemContextWithRubric := by
  have hself := contains_self c.systemContextWithRubric
  unfold policyText at h
  cases haction : c.policyAction lib retryCount with
  | retryWithHints topology hints =>
      rw [haction] at h
      dsimp only at h
      split at h
      · cases h
      · rw [← Option.some.inj h, MapeKController.hintContext]
        iterate 7 refine Contains.append_right ?_ _
        exact hself
  | retryWithTargets topology targets =>
      rw [haction] at h
      dsimp only at h
      split at h
      · cases h
      · rw [← Option.some.inj h]
        exact (hself.append_left _).append_right _
  | _ => simp [haction] at h

/-- What a decision writes has the base text, unless a winner was evicted. -/
theorem writtenContext_base {lib : ControllerLib} {c : MapeKController} {retryCount : Nat}
    {outcome : PipelineOutcome} {filterRatio : ℚ} {text : String}
    (keeps : KeepsBase lib c (.call (.decide outcome retryCount filterRatio)))
    (h : writtenContext lib c retryCount (issued c retryCount outcome) = some text) :
    Contains text c.systemContextWithRubric := by
  cases outcome with
  | resolved merge => cases h
  | fatal e => cases h
  | earlyExit reason =>
      simp only [writtenContext, issued] at h
      cases hrouted : exitRouted lib c retryCount with
      | false => cases reason <;> simp [hrouted] at h
      | true =>
          cases reason with
          | oraclePostSelectionBlocked summary =>
              rw [KeepsBase, hrouted] at keeps
              cases keeps
          | hallucinationDetected hint tauValues warning =>
              simp only [hrouted, ↓reduceIte, Option.some.injEq] at h
              rw [← h, hallucinationContext]
              iterate 5 refine Contains.append_right ?_ _
              exact contains_self _
          | _ =>
              simp only [hrouted, ↓reduceIte] at h
              split at h
              · exact policyText_base h
              · cases h

theorem baseKept_of_none {c : MapeKController} (h : c.retryContext = none) : BaseKept c := by
  intro text hcontext
  rw [h] at hcontext
  cases hcontext

theorem baseKept_of_withContext {c c' : MapeKController} {text : String}
    (h : c' = withContext c (some text)) (has : Contains text c.systemContextWithRubric) :
    BaseKept c' := by
  subst h
  intro text' heq
  rw [← Option.some.inj heq]
  exact has

theorem withContext_self {c : MapeKController} {context : Option String}
    (h : c.retryContext = context) : withContext c context = c := by
  subst h
  rfl

/-- A decision writes the base text or leaves the context there is. -/
theorem BaseKept.decide {lib : ControllerLib} {c : MapeKController} {outcome : PipelineOutcome}
    {retryCount : Nat} {filterRatio : ℚ} (kept : BaseKept c)
    (keeps : KeepsBase lib c (.call (.decide outcome retryCount filterRatio))) :
    BaseKept (c.decide lib (issued c retryCount outcome) retryCount filterRatio).2 := by
  have hbase := congrArg TaskPart.systemContextWithRubric
    (decide_taskPart lib c (issued c retryCount outcome) retryCount filterRatio)
  intro text hcontext
  refine Eq.mpr (congrArg (Contains text) hbase) ?_
  rw [decide_context, Option.or_eq_some_iff] at hcontext
  rcases hcontext with hwritten | ⟨-, hthere⟩
  · exact writtenContext_base keeps hwritten
  · exact kept text hthere

/-- A call that is not a decision adds to the context there is, or finds none. -/
theorem BaseKept.call {lib : ControllerLib} {c : MapeKController} {op : ControllerOp}
    (kept : BaseKept c) (undecided : isDecision op = false)
    (keeps : KeepsBase lib c (.call op)) : BaseKept (applyOp lib c op) := by
  have hbase := congrArg TaskPart.systemContextWithRubric (applyOp_taskPart lib c op)
  cases hcontext : c.retryContext with
  | some text =>
      obtain ⟨text', heq, hhas⟩ := applyOp_keeps lib c undecided (kept text hcontext)
      rw [withContext_self hcontext] at heq
      exact baseKept_of_withContext heq (Eq.mpr (congrArg (Contains text') hbase) hhas)
  | none =>
      refine baseKept_of_none ?_
      cases op with
      | decide outcome retryCount filterRatio => cases undecided
      | observe events wave =>
          have heq := observe_withContext c none events wave
          rw [withContext_self hcontext] at heq
          exact congrArg MapeKController.retryContext heq
      | injectWaveContinue grounding mandate =>
          rw [KeepsBase, hcontext] at keeps
          obtain ⟨hgrounding, hmandate⟩ := keeps.resolve_left Bool.false_ne_true
          have hsame : c.injectWaveContinue grounding mandate = c := by
            unfold MapeKController.injectWaveContinue
            rw [hgrounding, hmandate]
            rfl
          exact (congrArg MapeKController.retryContext hsame).trans hcontext
      | _ => exact hcontext

/-- A step that keeps the base keeps it in the retry context. -/
theorem BaseKept.step {lib : ControllerLib} {c : MapeKController} {op : ContextOp}
    (kept : BaseKept c) (keeps : KeepsBase lib c op) : BaseKept (applyContextOp lib c op) := by
  cases op with
  | call op =>
      cases op with
      | decide outcome retryCount filterRatio => exact kept.decide keeps
      | _ => exact kept.call rfl keeps
  | applyInductionResult patterns =>
      cases hcontext : c.retryContext with
      | some text =>
          obtain ⟨text', heq, hhas⟩ :=
            applyInductionResult_keeps c (kept text hcontext) patterns
          rw [withContext_self hcontext] at heq
          exact baseKept_of_withContext heq hhas
      | none =>
          rw [KeepsBase, hcontext] at keeps
          rw [keeps.resolve_left Bool.false_ne_true]
          exact kept

/-! ## Runs -/

/-- **The base context is kept** in front of every wave of a run that never starts
a retry context from an empty text: no operator text and no induction hint while
there is no retry context, and no evicted winner. -/
theorem base_context_kept (settings : ContextSettings) (lib : ControllerLib) (cfg : H2AIConfig)
    (init : ControllerInit) (corpus : List ConstraintDoc) (ops : List ContextOp)
    (keeps : RunMeets (fun c op => some (applyContextOp lib c op)) (KeepsBase lib)
      (MapeKController.new cfg init corpus) ops) :
    HasBase settings (contextRun lib (MapeKController.new cfg init corpus) ops) := by
  have hkept : BaseKept (contextRun lib (MapeKController.new cfg init corpus) ops) := by
    refine runMeets_holds ?_ (baseKept_of_none rfl) keeps (runActions_total _ _ ops)
    intro c op c' hkept hkeeps hstep
    rw [← Option.some.inj hstep]
    exact hkept.step hkeeps
  exact hkept.hasBase settings

def taskSettings : ContextSettings := ⟨"RULES", ⟨false, 0, 0⟩⟩

def taskInit : ControllerInit := { plainInit with systemContextWithRubric := "RULES AND RUBRIC" }

def useJwt : ContextOp := .call (.injectWaveContinue (some "Use JWT.") none)

/-- A wave without survivors and without violations. -/
def zeroSurvivalAt (wave : Nat) : ContextOp :=
  .call (.decide (.earlyExit (.zeroSurvival none none 0 [] [])) wave 1)

/-- A hallucination exit, then a wave whose decision window brings operator text. -/
def hintThenInput : List ContextOp :=
  [.call (.decide (.earlyExit (.hallucinationDetected "Cite sources." [] ⟨0, 0, 0⟩)) 0 1), useJwt,
    zeroSurvivalAt 1]

/-- The hint brings the base text, and the operator's text is appended to it. -/
theorem hint_then_input_has_base :
    HasBase taskSettings
      (contextRun asciiLib (MapeKController.new .reference taskInit []) hintThenInput) :=
  base_context_kept taskSettings asciiLib .reference taskInit [] hintThenInput (by decide +kernel)

/-- Operator text for the first wave is the whole context of the second. -/
theorem input_replaces_base :
    ¬ HasBase taskSettings
      (contextRun asciiLib (MapeKController.new .reference taskInit [])
        [useJwt, zeroSurvivalAt 0]) := by
  unfold HasBase Contains
  decide +kernel

end ControlPlane.Guarantees.BaseContext
