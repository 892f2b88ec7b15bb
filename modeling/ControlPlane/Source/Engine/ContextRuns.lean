import ControlPlane.Source.Engine.ActiveContext

/-!
# The retry context over the calls of a run

Embeds nothing new: the calls on a controller from the side of its retry context.
The context is written by some calls and read by none, so a controller with a
longer context goes through the same states; and every call but a decision keeps
the text that is there.
-/
namespace ControlPlane.Source.Engine

open Constraints Verification Config MapeK

def withContext (c : MapeKController) (context : Option String) : MapeKController :=
  { c with retryContext := context }

/-! ## Written, never read -/

theorem checkInstability_withContext (lib : ControllerLib) (c : MapeKController)
    (context : Option String) (retryCount : Nat) :
    ((withContext c context).checkInstability lib retryCount).1 =
      (c.checkInstability lib retryCount).1 := by
  unfold MapeKController.checkInstability
  cases hgap : c.cfg.gapK1.enabled with
  | true => simp only [withContext, hgap, ↓reduceIte]; rfl
  | false => simp only [withContext, hgap, Bool.false_eq_true, ↓reduceIte]

theorem writtenContext_withContext (lib : ControllerLib) (c : MapeKController)
    (context : Option String) (retryCount : Nat) (outcome : PipelineOutcome) :
    writtenContext lib (withContext c context) retryCount outcome =
      writtenContext lib c retryCount outcome := by
  have hrouted : exitRouted lib (withContext c context) retryCount =
      exitRouted lib c retryCount := by
    unfold exitRouted
    rw [checkInstability_withContext]
    rfl
  unfold writtenContext
  rw [hrouted]
  rfl

theorem issued_withContext (c : MapeKController) (context : Option String) (retryCount : Nat)
    (outcome : PipelineOutcome) :
    issued (withContext c context) retryCount outcome = issued c retryCount outcome := rfl

theorem foldl_withContext {α : Type} {f : MapeKController → α → MapeKController}
    (hf : ∀ c context a, f (withContext c context) a = withContext (f c a) context)
    (items : List α) (c : MapeKController) (context : Option String) :
    items.foldl f (withContext c context) = withContext (items.foldl f c) context := by
  induction items generalizing c with
  | nil => rfl
  | cons item rest ih =>
      rw [List.foldl_cons, List.foldl_cons, hf]
      exact ih (f c item)

theorem observeProposal_withContext (events : WaveEvents) (c : MapeKController)
    (context : Option String) (entry : String × String) :
    (withContext c context).observeProposal events entry =
      withContext (c.observeProposal events entry) context := by
  unfold MapeKController.observeProposal
  by_cases hempty : entry.2 = ""
  · rw [if_pos hempty, if_pos hempty]
  · rw [if_neg hempty, if_neg hempty]
    cases events.verificationEvents.find? (fun ev => decide (ev.explorerId = entry.1)) with
    | none => rfl
    | some ev =>
        cases hpartial : c.globalBestPartialProposal.all fun b => decide (b.1 < ev.score) with
        | true =>
            simp only [withContext, hpartial, ↓reduceIte]
            split <;> rfl
        | false =>
            simp only [withContext, hpartial, Bool.false_eq_true, ↓reduceIte]
            split <;> rfl

theorem observeCompliance_withContext (events : WaveEvents) (c : MapeKController)
    (context : Option String) :
    (withContext c context).observeCompliance events =
      withContext (c.observeCompliance events) context := by
  unfold MapeKController.observeCompliance
  split <;> rfl

theorem observe_withContext (c : MapeKController) (context : Option String)
    (events : WaveEvents) (wave : Nat) :
    (withContext c context).observe events wave = withContext (c.observe events wave) context := by
  have hevents : ∀ annotated, (withContext c context).observeEvents events annotated =
      withContext (c.observeEvents events annotated) context := fun _ => rfl
  unfold MapeKController.observe
  dsimp only
  rw [hevents, foldl_withContext (observeProposal_withContext events),
    observeCompliance_withContext, foldl_withContext fun _ _ _ => rfl]

/-! ## Text that is added -/

/-- A non-blank grounding is part of the new context. -/
theorem injectWaveContinue_contains (c : MapeKController) {grounding : String}
    (nonBlank : Text.trim grounding.toList ≠ []) (mandate : Option String) :
    ∃ text, c.injectWaveContinue (some grounding) mandate = withContext c (some text) ∧
      Contains text grounding := by
  have hkept : MapeKController.nonBlank (some grounding) = some grounding := by
    simp [MapeKController.nonBlank, nonBlank]
  unfold MapeKController.injectWaveContinue
  rw [hkept]
  cases MapeKController.nonBlank mandate with
  | none =>
      have hself := contains_self grounding
      cases c.retryContext with
      | none => exact ⟨_, rfl, hself⟩
      | some existing => exact ⟨_, rfl, hself.append_left _⟩
  | some m =>
      have hfirst := ((contains_self grounding).append_right "\n").append_right
        ("MANDATE OVERRIDE: " ++ m)
      cases c.retryContext with
      | none => exact ⟨_, rfl, hfirst⟩
      | some existing => exact ⟨_, rfl, hfirst.append_left _⟩

/-- An injection keeps the context that is there. -/
theorem injectWaveContinue_keeps (c : MapeKController) {text part : String}
    (has : Contains text part) (grounding mandate : Option String) :
    ∃ text', (withContext c (some text)).injectWaveContinue grounding mandate =
        withContext c (some text') ∧ Contains text' part := by
  unfold MapeKController.injectWaveContinue
  dsimp only
  split
  · exact ⟨text, rfl, has⟩
  · exact ⟨_, rfl, (has.append_right "\n").append_right _⟩

theorem applyInductionResult_contains (c : MapeKController) (top : RetryHintPattern)
    (rest : List RetryHintPattern) :
    ∃ text, applyInductionResult c (top :: rest) = withContext c (some text) ∧
      Contains text (inductionHint top) :=
  ⟨_, rfl, (contains_self _).append_left _⟩

theorem applyInductionResult_keeps (c : MapeKController) {text part : String}
    (has : Contains text part) (patterns : List RetryHintPattern) :
    ∃ text', applyInductionResult (withContext c (some text)) patterns =
        withContext c (some text') ∧ Contains text' part := by
  cases patterns with
  | nil => exact ⟨text, rfl, has⟩
  | cons top rest => exact ⟨_, rfl, has.append_right _⟩

/-! ## Calls of one wave -/

/-- The call is a decision. -/
def isDecision : ControllerOp → Bool
  | .decide _ _ _ => true
  | _ => false

/-- Every call but a decision keeps the context that is there. -/
theorem applyOp_keeps (lib : ControllerLib) (c : MapeKController) {op : ControllerOp}
    (undecided : isDecision op = false) {text part : String} (has : Contains text part) :
    ∃ text', applyOp lib (withContext c (some text)) op =
        withContext (applyOp lib c op) (some text') ∧ Contains text' part := by
  cases op with
  | decide outcome retryCount filterRatio => cases undecided
  | observe events wave => exact ⟨text, observe_withContext c (some text) events wave, has⟩
  | injectWaveContinue grounding mandate =>
      obtain ⟨context, heq⟩ := injectWaveContinue_eq c grounding mandate
      obtain ⟨text', hnext, hhas⟩ := injectWaveContinue_keeps c has grounding mandate
      refine ⟨text', ?_, hhas⟩
      unfold applyOp
      dsimp only
      rw [heq, hnext]
      rfl
  | _ => exact ⟨text, rfl, has⟩

theorem replay_keeps (lib : ControllerLib) (c : MapeKController) {calls : List ControllerOp}
    (undecided : ∀ op ∈ calls, isDecision op = false) {text part : String}
    (has : Contains text part) :
    ∃ text', replay lib (withContext c (some text)) calls =
        withContext (replay lib c calls) (some text') ∧ Contains text' part := by
  induction calls generalizing c text with
  | nil => exact ⟨text, rfl, has⟩
  | cons op rest ih =>
      obtain ⟨text', hop, hhas⟩ := applyOp_keeps lib c (undecided op (List.mem_cons_self ..)) has
      obtain ⟨text'', hrest, hlast⟩ :=
        ih (applyOp lib c op) (fun op' hmem => undecided op' (List.mem_cons_of_mem _ hmem)) hhas
      refine ⟨text'', ?_, hlast⟩
      unfold replay at hrest ⊢
      rw [List.foldl_cons, List.foldl_cons, hop]
      exact hrest

/-! ## Whole runs -/

/-- A call on the controller of a run, or the induction result `observe` finds. -/
inductive ContextOp where
  | call (op : ControllerOp)
  | applyInductionResult (patterns : List RetryHintPattern)

/-- A decision gets the outcome with the texts that the phases issue in its state. -/
def applyContextOp (lib : ControllerLib) (c : MapeKController) : ContextOp → MapeKController
  | .call (.decide outcome retryCount filterRatio) =>
      (c.decide lib (issued c retryCount outcome) retryCount filterRatio).2
  | .call op => applyOp lib c op
  | .applyInductionResult patterns => Engine.applyInductionResult c patterns

def contextRun (lib : ControllerLib) (c : MapeKController) (ops : List ContextOp) :
    MapeKController :=
  ops.foldl (applyContextOp lib) c

theorem applyContextOp_taskPart (lib : ControllerLib) (c : MapeKController) (op : ContextOp) :
    (applyContextOp lib c op).taskPart = c.taskPart := by
  cases op with
  | call op =>
      cases op with
      | decide outcome retryCount filterRatio =>
          exact decide_taskPart lib c _ retryCount filterRatio
      | _ => exact applyOp_taskPart lib c _
  | applyInductionResult patterns => cases patterns <;> rfl

theorem contextRun_taskPart (lib : ControllerLib) (c : MapeKController) (ops : List ContextOp) :
    (contextRun lib c ops).taskPart = c.taskPart :=
  taskPart_foldl (applyContextOp_taskPart lib) ops c

end ControlPlane.Source.Engine
