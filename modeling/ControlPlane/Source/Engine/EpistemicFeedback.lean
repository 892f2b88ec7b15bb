import ControlPlane.Lib.Loops
import ControlPlane.Source.Engine.GapRegistry
import ControlPlane.Source.MapeK.RepairContext
import Mathlib.Logic.Relation

/-!
# Epistemic feedback

Embeds `run_epistemic_feedback_loop` and `NullResolver`
(`crates/h2ai-orchestrator/src/epistemic_feedback.rs`), `MicroExplorerResolver`
(`gap_resolvers/micro_explorer.rs`) and `ProvenanceMap::document_confidence`
(`provenance.rs`) with the provisions that `run_epistemic_stage` adds to the map. A checker
and a resolver answer each call as they like.

The passes and the adopted patches are recorded. The program does not read the records; the
guarantees speak about them.
-/
namespace ControlPlane.Source.Engine

open Lib MapeK

/-! ## Checkers and resolvers -/

structure GapCheckContext where
  verifiedProvisionList : List String
  constraintText : String
  deriving DecidableEq, Repr

structure GapResolveContext where
  gap : Gap
  resolvedOutput : String
  verifiedProvisionList : List String
  constraintText : String
  constraintIds : List String
  deriving DecidableEq, Repr

structure ResolutionResult where
  gapId : String
  patchedText : Option String
  scoreDelta : ℚ
  deriving DecidableEq, Repr

/-- `GapChecker::check`, by the number of the call. -/
abbrev GapChecker := Nat → String → GapCheckContext → List Gap

/-- `GapResolver`, with `resolve` by the number of the call. -/
structure GapResolver where
  handles : GapKind → Bool
  resolve : Nat → GapResolveContext → ResolutionResult

def nullResolver : GapResolver :=
  { handles := fun _ => false
    resolve := fun _ ctx => ⟨ctx.gap.id, none, 0⟩ }

def recoveryTask : String :=
  "GAP TO CLOSE:\n\x7bgap_description\x7d\n\n" ++
    "FULL CONSTRAINT REQUIREMENTS (all provisions must remain satisfied):\n" ++
    "\x7bconstraint_text\x7d\n\n" ++
    "DO NOT TOUCH — already verified provisions:\n\x7bverified_provision_list\x7d\n\n" ++
    "FULL DOCUMENT TO PATCH:\n\x7bdraft_section\x7d\n\n" ++
    "Rewrite the document to close the gap while keeping all verified provisions intact. " ++
    "Return the COMPLETE corrected document."

/-- The task text of `MicroExplorerResolver::resolve`. -/
def recoveryTaskText (ctx : GapResolveContext) : String :=
  let verifiedList := "\n- ".intercalate ctx.verifiedProvisionList
  let verifiedBlock := if verifiedList.isEmpty then "(none)" else "- " ++ verifiedList
  fillIn (fillIn (fillIn (fillIn recoveryTask "gap_description" ctx.gap.description)
    "constraint_text" ctx.constraintText) "verified_provision_list" verifiedBlock)
    "draft_section" ctx.resolvedOutput

/-- `MicroExplorerResolver`: an answer that is not blank is the patch. -/
def microExplorerResolver (adapter : Nat → String → Option String) : GapResolver :=
  { handles := fun kind => kind = .missingProvision || kind = .incompleteProvision
    resolve := fun call ctx =>
      match (adapter call (recoveryTaskText ctx)).filter
          fun output => !(Text.trim output.toList).isEmpty with
      | some output => ⟨ctx.gap.id, some output, 1⟩
      | none => ⟨ctx.gap.id, none, 0⟩ }

/-! ## The loop -/

structure FeedbackLoopParams where
  staticGaps : List Gap
  initialOutput : String
  coherenceChecker : Option GapChecker
  resolver : GapResolver
  verifiedProvisionList : List String
  constraintText : String
  constraintIds : List String
  maxPasses : Nat

/-- A call of the resolver. -/
structure ResolveCall where
  context : GapResolveContext
  result : ResolutionResult
  deriving DecidableEq, Repr

/-- The gap id that an answer with a patch claims. -/
def ResolveCall.closes (call : ResolveCall) : Option String :=
  call.result.patchedText.map fun _ => call.result.gapId

/-- A pass: what its check reported and its calls of the resolver. -/
structure FeedbackPass where
  detected : List Gap
  calls : List ResolveCall
  deriving DecidableEq, Repr

def FeedbackPass.closed (pass : FeedbackPass) : List String := pass.calls.filterMap (·.closes)

/-- A document and the patch that took its place. -/
structure Adoption where
  replaced : String
  patch : String
  deriving DecidableEq, Repr

/-- The variables while the batches of a pass are resolved. -/
structure PatchState where
  currentOutput : String
  closedThisPass : List String
  calls : List ResolveCall
  adopted : List Adoption

structure FeedbackState where
  currentOutput : String
  openStatic : List Gap
  closedIds : List String
  coherenceChecksRun : Nat
  lastCoherenceGaps : List Gap
  passes : List FeedbackPass
  adopted : List Adoption

structure FeedbackLoopResult where
  finalOutput : String
  closedIds : List String
  openGaps : List Gap
  coherenceChecksRun : Nat
  deriving DecidableEq, Repr

section Loop

variable (p : FeedbackLoopParams)

def resolveContext (gap : Gap) (document : String) : GapResolveContext :=
  ⟨gap, document, p.verifiedProvisionList, p.constraintText, p.constraintIds⟩

/-- One gap of a batch; `earlier` calls were made in the passes before. -/
def resolveGap (earlier : Nat) (s : PatchState) (gap : Gap) : PatchState :=
  let ctx := resolveContext p gap s.currentOutput
  let res := p.resolver.resolve (earlier + s.calls.length) ctx
  match res.patchedText with
  | some patch =>
      { currentOutput := patch
        closedThisPass := s.closedThisPass ++ [res.gapId]
        calls := s.calls ++ [⟨ctx, res⟩]
        adopted := s.adopted ++ [⟨s.currentOutput, patch⟩] }
  | none => { s with calls := s.calls ++ [⟨ctx, res⟩] }

/-- The check at the start of a pass. -/
def detectGaps (s : FeedbackState) : List Gap :=
  match p.coherenceChecker with
  | some checker =>
      checker s.coherenceChecksRun s.currentOutput ⟨p.verifiedProvisionList, p.constraintText⟩
  | none => []

def resolvableGaps (s : FeedbackState) : List Gap :=
  s.openStatic.filter (fun g => p.resolver.handles g.kind) ++
    (detectGaps p s).filter fun g => p.resolver.handles g.kind

/-- The batches, one after the other. -/
def resolveBatches (s : FeedbackState) (batches : List (List String)) : PatchState :=
  (batches.flatMap fun batch => (resolvableGaps p s).filter fun g => decide (g.id ∈ batch)).foldl
    (resolveGap p (s.passes.flatMap (·.calls)).length) ⟨s.currentOutput, [], [], []⟩

/-- The state behind a pass in which the resolver did this. -/
def passedState (s : FeedbackState) (patched : PatchState) : FeedbackState :=
  { currentOutput := patched.currentOutput
    openStatic := s.openStatic.filter fun g => decide (g.id ∉ patched.closedThisPass)
    closedIds := s.closedIds ++ patched.closedThisPass
    coherenceChecksRun := s.coherenceChecksRun + if p.coherenceChecker.isSome then 1 else 0
    lastCoherenceGaps := detectGaps p s
    passes := s.passes ++ [⟨detectGaps p s, patched.calls⟩]
    adopted := s.adopted ++ patched.adopted }

/-- One pass. It stops without resolvable gaps, at a dependency cycle, and without progress;
nothing was closed then. -/
def feedbackPass (_pass : Nat) (s : FeedbackState) : Round FeedbackState FeedbackState :=
  let untouched := passedState p s ⟨s.currentOutput, [], [], []⟩
  if (resolvableGaps p s).isEmpty then .stop untouched
  else
    match dispatchBatches (resolvableGaps p s) with
    | .error _ => .stop untouched
    | .ok batches =>
        let patched := resolveBatches p s batches
        if patched.closedThisPass.isEmpty then .stop (passedState p s patched)
        else .next (passedState p s patched)

/-- The variables when the loop ends. -/
def feedbackEnd : FeedbackState :=
  match forRounds (feedbackPass p) p.maxPasses 0
      ⟨p.initialOutput, p.staticGaps, [], 0, [], [], []⟩ with
  | .next s => s
  | .stop s => s

/-- `run_epistemic_feedback_loop`. -/
def runEpistemicFeedbackLoop : FeedbackLoopResult :=
  let s := feedbackEnd p
  { finalOutput := s.currentOutput
    closedIds := s.closedIds
    openGaps := s.openStatic ++ s.lastCoherenceGaps.filter fun g => decide (g.id ∉ s.closedIds)
    coherenceChecksRun := s.coherenceChecksRun }

end Loop

/-! ## Provenance -/

inductive ProvisionConfidence where
  | verified | autoCorrected | reviewRecommended | requiresReview | unverified
  deriving DecidableEq, Repr

/-- The derived order, from best to worst. -/
def ProvisionConfidence.rank : ProvisionConfidence → Nat
  | verified => 0
  | autoCorrected => 1
  | reviewRecommended => 2
  | requiresReview => 3
  | unverified => 4

inductive DocumentConfidence where
  | high | reviewRecommended | requiresReview | unverified
  deriving DecidableEq, Repr

structure ProvisionProvenance where
  provisionLabel : String
  confidence : ProvisionConfidence
  gapIds : List String
  deriving DecidableEq, Repr

/-- `max`: the last of the worst. -/
def worstConfidence (worst : ProvisionConfidence) (p : ProvisionProvenance) :
    ProvisionConfidence :=
  if worst.rank ≤ p.confidence.rank then p.confidence else worst

/-- `document_confidence`. -/
def documentConfidence : List ProvisionProvenance → DocumentConfidence
  | [] => .unverified
  | first :: rest =>
      match rest.foldl worstConfidence first.confidence with
      | .unverified => .unverified
      | .requiresReview => .requiresReview
      | .reviewRecommended => .reviewRecommended
      | .verified | .autoCorrected => .high

/-- The provisions of the map: the explorers that passed, the static gaps that were closed,
the open gaps. -/
def provenanceMap (passedExplorers : List String) (staticGaps : List Gap)
    (closedIds : List String) (openGaps : List Gap) : List ProvisionProvenance :=
  passedExplorers.map (fun explorer => ⟨explorer, .verified, []⟩) ++
    closedIds.filterMap (fun gapId => (staticGaps.find? fun g => decide (g.id = gapId)).map
      fun gap => ⟨gap.description, .autoCorrected, [gapId]⟩) ++
    openGaps.map fun gap => ⟨gap.description, .requiresReview, [gap.id]⟩

/-- A recovery that the final verification confirms. -/
def promoted (p : ProvisionProvenance) : ProvisionProvenance :=
  if p.confidence = .autoCorrected then { p with confidence := .verified } else p

/-- The grade of the delivered document; `confirmed` is the final re-verification. -/
def stageConfidence (passedExplorers : List String) (staticGaps : List Gap)
    (closedIds : List String) (openGaps : List Gap) (confirmed : Bool) : DocumentConfidence :=
  let provisions := provenanceMap passedExplorers staticGaps closedIds openGaps
  documentConfidence (if confirmed then provisions.map promoted else provisions)

/-! ## What a pass keeps -/

/-- The document that an answer puts in place of the one it was given. -/
def ResolveCall.adopts (call : ResolveCall) : Option Adoption :=
  call.result.patchedText.map fun patch => ⟨call.context.resolvedOutput, patch⟩

/-- One adopted patch after the other leads from one document to the other. -/
def LeadsTo (adopted : List Adoption) : String → String → Prop :=
  Relation.ReflTransGen fun old new => ⟨old, new⟩ ∈ adopted

theorem LeadsTo.mono {adopted more : List Adoption} (h : ∀ a ∈ adopted, a ∈ more)
    {old new : String} (leads : LeadsTo adopted old new) : LeadsTo more old new :=
  Relation.ReflTransGen.mono (fun _ _ ha => h _ ha) _ _ leads

/-- What the records of a pass say about its variables. -/
structure PatchRecords (start : String) (s : PatchState) : Prop where
  closed : s.closedThisPass = s.calls.filterMap (·.closes)
  adopted : s.adopted = s.calls.filterMap (·.adopts)
  leads : LeadsTo s.adopted start s.currentOutput

variable {p : FeedbackLoopParams}

@[simp] theorem resolveContext_resolvedOutput (gap : Gap) (document : String) :
    (resolveContext p gap document).resolvedOutput = document := rfl

theorem resolveGap_records {start : String} {earlier : Nat} {s : PatchState} (gap : Gap)
    (h : PatchRecords start s) : PatchRecords start (resolveGap p earlier s gap) := by
  unfold resolveGap
  dsimp only
  cases hpatch : (p.resolver.resolve (earlier + s.calls.length)
      (resolveContext p gap s.currentOutput)).patchedText with
  | none =>
      refine ⟨?_, ?_, h.leads⟩
      · simp [h.closed, ResolveCall.closes, hpatch]
      · simp [h.adopted, ResolveCall.adopts, hpatch]
  | some patch =>
      refine ⟨?_, ?_, ?_⟩
      · simp [h.closed, ResolveCall.closes, hpatch]
      · simp [h.adopted, ResolveCall.adopts, hpatch]
      · have hbefore := h.leads.mono fun a ha =>
          List.mem_append_left [⟨s.currentOutput, patch⟩] ha
        exact hbefore.tail (List.mem_append_right _ (List.mem_singleton_self _))

theorem resolveAll_records {start : String} {earlier : Nat} (gaps : List Gap) {s : PatchState}
    (h : PatchRecords start s) :
    PatchRecords start (gaps.foldl (resolveGap p earlier) s) := by
  induction gaps generalizing s with
  | nil => exact h
  | cons gap gaps ih => exact ih (resolveGap_records gap h)

/-- What the records of a run say about its variables. -/
structure FeedbackRecords (p : FeedbackLoopParams) (s : FeedbackState) : Prop where
  openStatic : s.openStatic = p.staticGaps.filter fun g => decide (g.id ∉ s.closedIds)
  closed : s.closedIds = s.passes.flatMap (·.closed)
  detected : s.lastCoherenceGaps = (s.passes.getLast?.map (·.detected)).getD []
  adopted : s.adopted = (s.passes.flatMap (·.calls)).filterMap (·.adopts)
  leads : LeadsTo s.adopted p.initialOutput s.currentOutput

theorem passedState_records {s : FeedbackState} {patched : PatchState} (h : FeedbackRecords p s)
    (hpatched : PatchRecords s.currentOutput patched) :
    FeedbackRecords p (passedState p s patched) := by
  refine ⟨?_, ?_, ?_, ?_, ?_⟩
  · simp only [passedState, h.openStatic, List.filter_filter, List.mem_append, not_or]
    congr 1
    funext g
    rw [Bool.decide_and, Bool.and_comm]
  · simp [passedState, h.closed, FeedbackPass.closed, hpatched.closed]
  · simp [passedState]
  · simp [passedState, h.adopted, hpatched.adopted]
  · have hbefore := h.leads.mono fun a ha => List.mem_append_left patched.adopted ha
    have hafter := hpatched.leads.mono fun a ha => List.mem_append_right s.adopted ha
    exact hbefore.trans hafter

theorem untouched_records (s : FeedbackState) :
    PatchRecords s.currentOutput ⟨s.currentOutput, [], [], []⟩ := ⟨rfl, rfl, .refl⟩

theorem resolveBatches_records (s : FeedbackState) (batches : List (List String)) :
    PatchRecords s.currentOutput (resolveBatches p s batches) :=
  resolveAll_records _ (untouched_records s)

theorem feedbackPass_records {i : Nat} {s s' : FeedbackState} (h : FeedbackRecords p s)
    (hpass : feedbackPass p i s = .next s' ∨ feedbackPass p i s = .stop s') :
    FeedbackRecords p s' := by
  unfold feedbackPass at hpass
  dsimp only at hpass
  have huntouched := passedState_records h (untouched_records s)
  split_ifs at hpass
  · rcases hpass with hpass | hpass
    · cases hpass
    · cases hpass
      exact huntouched
  · cases hbatches : dispatchBatches (resolvableGaps p s) with
    | error e =>
        simp only [hbatches, reduceCtorEq, Round.stop.injEq, false_or] at hpass
        exact hpass ▸ huntouched
    | ok batches =>
        have hpatched : FeedbackRecords p (passedState p s (resolveBatches p s batches)) :=
          passedState_records h (resolveBatches_records s batches)
        simp only [hbatches] at hpass
        split_ifs at hpass
        · rcases hpass with hpass | hpass
          · cases hpass
          · cases hpass
            exact hpatched
        · rcases hpass with hpass | hpass
          · cases hpass
            exact hpatched
          · cases hpass

/-- The records of every run. -/
theorem feedbackEnd_records (p : FeedbackLoopParams) : FeedbackRecords p (feedbackEnd p) := by
  have hstart : FeedbackRecords p ⟨p.initialOutput, p.staticGaps, [], 0, [], [], []⟩ :=
    ⟨by simp, rfl, rfl, rfl, .refl⟩
  have hrounds : ∀ n i s, FeedbackRecords p s →
      ∀ s', (forRounds (feedbackPass p) n i s = .next s' ∨
        forRounds (feedbackPass p) n i s = .stop s') → FeedbackRecords p s' := by
    intro n
    induction n with
    | zero =>
        rintro i s h s' (hend | hend)
        · cases hend
          exact h
        · cases hend
    | succ n ih =>
        intro i s h s' hend
        rw [forRounds] at hend
        cases hpass : feedbackPass p i s with
        | next s₁ =>
            rw [hpass] at hend
            exact ih (i + 1) s₁ (feedbackPass_records h (Or.inl hpass)) s' hend
        | stop s₁ =>
            rw [hpass] at hend
            rcases hend with hend | hend
            · cases hend
            · cases hend
              exact feedbackPass_records h (Or.inr hpass)
  unfold feedbackEnd
  cases hrun : forRounds (feedbackPass p) p.maxPasses 0
      ⟨p.initialOutput, p.staticGaps, [], 0, [], [], []⟩ with
  | next s => exact hrounds _ _ _ hstart s (Or.inl hrun)
  | stop s => exact hrounds _ _ _ hstart s (Or.inr hrun)

/-! ## The grade -/

theorem worstConfidence_rank (worst : ProvisionConfidence) (p : ProvisionProvenance) :
    worst.rank ≤ (worstConfidence worst p).rank ∧
      p.confidence.rank ≤ (worstConfidence worst p).rank := by
  unfold worstConfidence
  split_ifs with h
  · exact ⟨h, le_rfl⟩
  · exact ⟨le_rfl, by omega⟩

theorem foldl_worst_rank (provisions : List ProvisionProvenance) (worst : ProvisionConfidence) :
    worst.rank ≤ (provisions.foldl worstConfidence worst).rank ∧
      ∀ p ∈ provisions, p.confidence.rank ≤ (provisions.foldl worstConfidence worst).rank := by
  induction provisions generalizing worst with
  | nil => exact ⟨le_rfl, fun p hp => by cases hp⟩
  | cons first rest ih =>
      obtain ⟨hworst, hrest⟩ := ih (worstConfidence worst first)
      obtain ⟨hleft, hright⟩ := worstConfidence_rank worst first
      refine ⟨hleft.trans hworst, fun p hp => ?_⟩
      rcases List.mem_cons.mp hp with rfl | hp
      · exact hright.trans hworst
      · exact hrest p hp

/-- A document of high confidence has no provision that needs a review. -/
theorem rank_of_high {provisions : List ProvisionProvenance}
    (h : documentConfidence provisions = .high) {p : ProvisionProvenance} (hp : p ∈ provisions) :
    p.confidence.rank ≤ 1 := by
  cases provisions with
  | nil => cases hp
  | cons first rest =>
      obtain ⟨hfirst, hrest⟩ := foldl_worst_rank rest first.confidence
      unfold documentConfidence at h
      have hworst : (rest.foldl worstConfidence first.confidence).rank ≤ 1 := by
        cases hfold : rest.foldl worstConfidence first.confidence with
        | verified => exact Nat.zero_le 1
        | autoCorrected => exact le_rfl
        | reviewRecommended => simp [hfold] at h
        | requiresReview => simp [hfold] at h
        | unverified => simp [hfold] at h
      rcases List.mem_cons.mp hp with rfl | hp
      · exact hfirst.trans hworst
      · exact (hrest p hp).trans hworst

theorem promoted_of_requiresReview {p : ProvisionProvenance}
    (h : p.confidence = .requiresReview) : promoted p = p := by
  unfold promoted
  rw [if_neg (by rw [h]; decide)]

/-- An open gap keeps the grade below high, whatever else was found. -/
theorem no_open_of_high {passedExplorers : List String} {staticGaps : List Gap}
    {closedIds : List String} {openGaps : List Gap} {confirmed : Bool}
    (h : stageConfidence passedExplorers staticGaps closedIds openGaps confirmed = .high) :
    openGaps = [] := by
  apply List.eq_nil_iff_forall_not_mem.mpr
  intro gap hgap
  have hmem : (⟨gap.description, .requiresReview, [gap.id]⟩ : ProvisionProvenance) ∈
      provenanceMap passedExplorers staticGaps closedIds openGaps :=
    List.mem_append_right _ (List.mem_map_of_mem hgap)
  unfold stageConfidence at h
  have hrank : ProvisionConfidence.requiresReview.rank ≤ 1 := by
    cases confirmed with
    | true =>
        have hpromoted := List.mem_map_of_mem (f := promoted) hmem
        rw [promoted_of_requiresReview rfl] at hpromoted
        exact rank_of_high h hpromoted
    | false => exact rank_of_high h hmem
  exact absurd hrank (by decide)

end ControlPlane.Source.Engine
