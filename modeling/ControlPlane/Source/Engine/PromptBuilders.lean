import ControlPlane.Lib.Placeholders
import ControlPlane.Source.Engine.EpistemicFeedback
import ControlPlane.Source.Engine.Grafting
import ControlPlane.Source.MapeK.RepairContext
import ControlPlane.Source.Verification.Predicate

/-!
# Prompt builders

Embeds the builders that fill a prompt template by one `str::replace` for each
variable: `PromptTemplate::render` of `crates/h2ai-config/src/prompts.rs`, the
verification prompt, the prompts of `crates/h2ai-autonomic/src/repair.rs` and that of
the micro explorer. `substitute` is the simultaneous substitution they stand for.
-/
namespace ControlPlane.Source.Engine

open Lib.Placeholders MapeK Verification

def braces : Brackets Char where
  opening := '\x7b'
  closing := '\x7d'
  opening_ne_closing := by decide

/-! ## `str::replace` of a placeholder -/

theorem splitLoop_ne_nil (sep : List Char) (skip : Nat) (piece text : List Char) :
    Text.splitLoop sep skip piece text ≠ [] := by
  induction text generalizing skip piece with
  | nil => simp [Text.splitLoop]
  | cons c rest ih =>
    cases skip with
    | succ skip => exact ih skip piece
    | zero =>
      rw [Text.splitLoop]
      split
      · simp
      · exact ih 0 _

theorem intercalate_cons (value piece : List Char) {pieces : List (List Char)}
    (more : pieces ≠ []) :
    List.intercalate value (piece :: pieces)
      = piece ++ (value ++ List.intercalate value pieces) := by
  cases pieces with
  | nil => exact absurd rfl more
  | cons next rest => simp [List.intercalate]

theorem splitLoop_eq (key value : List Char) (skip : Nat) (piece text : List Char) :
    List.intercalate value (Text.splitLoop (braces.placeholder key) skip piece text)
      = piece.reverse ++ braces.substituteLoop [(key, value)] skip text := by
  induction text generalizing skip piece with
  | nil => simp [Text.splitLoop, List.intercalate]
  | cons c rest ih =>
    cases skip with
    | succ skip => exact ih skip piece
    | zero =>
      rw [Text.splitLoop, Brackets.substituteLoop]
      by_cases here : braces.standsAt key (c :: rest) = true
      · have first : (braces.placeholder key).isPrefixOf (c :: rest) = true := here
        rw [if_pos first, intercalate_cons _ _ (splitLoop_ne_nil _ _ _ _), ih,
          Brackets.placeholder_length]
        simp [here]
      · have first : ¬ (braces.placeholder key).isPrefixOf (c :: rest) = true := here
        rw [if_neg first, ih]
        simp [here]

/-- `str::replace` of one placeholder is the substitution of one key. -/
theorem replaceText_eq (key value text : List Char) :
    Text.replaceText text (braces.placeholder key) value
      = braces.substitute [(key, value)] text :=
  splitLoop_eq key value 0 [] text

/-! ## Templates -/

/-- What the variables of a template stand for: distinct names without braces. -/
structure Assignment where
  vars : List (String × String)
  distinct : (vars.map Prod.fst).Nodup
  plain : ∀ kv ∈ vars, '\x7b' ∉ kv.1.toList ∧ '\x7d' ∉ kv.1.toList

def charVars (vars : List (String × String)) : List (List Char × List Char) :=
  vars.map fun kv => (kv.1.toList, kv.2.toList)

/-- Every placeholder of the template replaced by its value, at once. -/
def substitute (template : String) (vars : List (String × String)) : String :=
  String.ofList (braces.substitute (charVars vars) template.toList)

/-- How often `\x7bname\x7d` stands in a text. -/
def placeholderCount (name text : String) : Nat :=
  braces.occurrences name.toList text.toList

def placeholderText (name : String) : String := "\x7b" ++ name ++ "\x7d"

theorem placeholderText_toList (name : String) :
    (placeholderText name).toList = braces.placeholder name.toList := by
  simp [placeholderText, Brackets.placeholder, braces]

theorem renderTemplate_toList (template : String) (vars : List (String × String)) :
    (renderTemplate template vars).toList = braces.fillEach template.toList (charVars vars) := by
  induction vars generalizing template with
  | nil => rfl
  | cons kv vars ih =>
    have first : renderTemplate template (kv :: vars)
        = renderTemplate (fillIn template kv.1 kv.2) vars := rfl
    have filled : (fillIn template kv.1 kv.2).toList
        = braces.substitute [(kv.1.toList, kv.2.toList)] template.toList := by
      rw [fillIn, String.toList_ofList, ← replaceText_eq, ← placeholderText_toList]
      rfl
    rw [first, ih, filled]
    rfl

theorem Assignment.assigns (a : Assignment) : braces.Assigns (charVars a.vars) where
  distinct := by
    have names : (charVars a.vars).map Prod.fst = (a.vars.map Prod.fst).map String.toList := by
      simp [charVars]
    rw [names]
    exact a.distinct.map fun _ _ same => String.toList_injective same
  plain := by
    intro kv member
    obtain ⟨named, found, rfl⟩ := List.mem_map.mp member
    exact a.plain named found

/-- The same variables in another order. -/
def Assignment.reorder (a : Assignment) {order : List (String × String)}
    (same : order.Perm a.vars) : Assignment where
  vars := order
  distinct := (same.map Prod.fst).nodup_iff.mpr a.distinct
  plain := fun kv member => a.plain kv (same.mem_iff.mp member)

/-- After each variable the text is the template with the variables so far replaced,
and nothing else. -/
def FilledVerbatim (template : String) (vars : List (String × String)) : Prop :=
  ∀ i ≤ vars.length, renderTemplate template (vars.take i) = substitute template (vars.take i)

/-- In its turn each variable finds as many placeholders as the template has of it, or
its value is the placeholder. -/
def KeepsPlaceholders (template : String) (vars : List (String × String)) : Prop :=
  ∀ i kv, vars[i]? = some kv →
    kv.2 = placeholderText kv.1 ∨
      placeholderCount kv.1 (substitute template (vars.take i)) = placeholderCount kv.1 template

theorem filledVerbatim_iff (template : String) (a : Assignment) :
    FilledVerbatim template a.vars ↔ KeepsPlaceholders template a.vars := by
  have taken : ∀ i, charVars (a.vars.take i) = (charVars a.vars).take i := by
    simp [charVars, List.map_take]
  have verbatim : FilledVerbatim template a.vars
      ↔ braces.FilledVerbatim template.toList (charVars a.vars) := by
    unfold FilledVerbatim Brackets.FilledVerbatim
    rw [show (charVars a.vars).length = a.vars.length by simp [charVars]]
    refine forall_congr' fun i => forall_congr' fun _ => ?_
    rw [← String.toList_inj, renderTemplate_toList, substitute, String.toList_ofList, taken]
  have keeps : KeepsPlaceholders template a.vars
      ↔ braces.KeepsPlaceholders template.toList (charVars a.vars) := by
    unfold KeepsPlaceholders Brackets.KeepsPlaceholders placeholderCount
    constructor
    · intro kept i kv here
      rw [charVars, List.getElem?_map] at here
      obtain ⟨named, found, rfl⟩ := Option.map_eq_some_iff.mp here
      have result := kept i named found
      rwa [← String.toList_inj, placeholderText_toList, substitute, String.toList_ofList,
        taken] at result
    · intro kept i kv here
      have found : (charVars a.vars)[i]? = some (kv.1.toList, kv.2.toList) := by
        simp [charVars, here]
      have result := kept i _ found
      rwa [← String.toList_inj, placeholderText_toList, substitute, String.toList_ofList, taken]
  rw [verbatim, keeps]
  exact braces.filledVerbatim_iff a.assigns template.toList

/-- Values that stand verbatim stand so in any order. -/
theorem substitute_reorder (template : String) (a : Assignment) {order : List (String × String)}
    (same : order.Perm a.vars) : substitute template order = substitute template a.vars := by
  have chars : (charVars order).Perm (charVars a.vars) := same.map _
  rw [substitute, substitute, braces.substitute_perm a.assigns chars]

theorem FilledVerbatim.whole {template : String} {vars : List (String × String)}
    (filled : FilledVerbatim template vars) :
    renderTemplate template vars = substitute template vars := by
  have all := filled vars.length (Nat.le_refl _)
  rwa [List.take_length] at all

/-! ## The integration wave -/

def integrationWavePrompt : String :=
  "--- INTEGRATION WAVE ---\n" ++
    "Sequential repair has converged. " ++
    "The following \x7bconstraint_count\x7d proposals each satisfy\n" ++
    "a DIFFERENT subset of the required constraints — no single proposal satisfies all.\n\n" ++
    "\x7bpartial_list\x7d\n\n" ++
    "INTEGRATION TASK:\n" ++
    "Produce ONE unified proposal that satisfies ALL constraints simultaneously.\n\n" ++
    "MANDATORY STEPS BEFORE WRITING:\n" ++
    "  1. Identify which specific techniques from each partial proposal " ++
    "are REQUIRED by the\n" ++
    "     constraints it satisfies. List them.\n" ++
    "  2. Identify any ARCHITECTURAL CONFLICTS between techniques from different partials.\n" ++
    "     Resolve each conflict explicitly — choose one approach and state why.\n" ++
    "  3. Only after steps 1 and 2: write the unified proposal.\n\n" ++
    "COHERENCE MANDATE: the output must be a single coherent architecture. Do NOT\n" ++
    "concatenate the partial proposals. Do NOT use techniques from a partial unless they\n" ++
    "are required by the constraint that partial satisfies.\n" ++
    "--- END INTEGRATION WAVE ---"

structure SolverOutput where
  clusterIds : List String
  proposalText : String
  seedPassedChecks : List Nat
  deriving DecidableEq, Repr

structure IntegrationInput where
  systemContextWithRubric : String
  balancingInstruction : String
  solverOutputs : List SolverOutput
  constraintCount : Nat
  constraintChecks : List (String × List String)
  deriving DecidableEq, Repr

namespace IntegrationInput

variable (input : IntegrationInput)

/-- The binary checks of the constraints of one cluster. -/
def checksBlock (output : SolverOutput) : String :=
  "\n".intercalate <| output.clusterIds.filterMap fun cid =>
    ((input.constraintChecks.find? fun entry => entry.1 = cid).filter fun entry =>
      !entry.2.isEmpty).map fun entry =>
        "  " ++ entry.1 ++ ":\n" ++ "\n".intercalate
          (entry.2.mapIdx fun i text => "    [" ++ toString (i + 1) ++ "] " ++ text)

def clusterSection (n : Nat) (output : SolverOutput) : String :=
  let seedChecks := if output.seedPassedChecks.isEmpty then "none"
    else ", ".intercalate (output.seedPassedChecks.map fun i => toString (i + 1))
  let checks := input.checksBlock output
  "### Cluster " ++ toString (n + 1) ++ ": " ++ ", ".intercalate output.clusterIds ++
    (if checks = "" then ""
      else "\nRequired binary checks (ALL must pass in unified proposal):\n" ++ checks) ++
    "\nPrior evidence (seed solution checks): " ++ seedChecks ++
    "\n---\n" ++ output.proposalText ++ "\n---"

def partialList : String := "\n\n".intercalate (input.solverOutputs.mapIdx input.clusterSection)

/-- `build_integration_wave_context`. -/
def buildIntegrationWaveContext : String :=
  let body := fillIn (fillIn integrationWavePrompt "constraint_count"
    (toString input.constraintCount)) "partial_list" input.partialList
  input.systemContextWithRubric ++
    (if input.balancingInstruction = "" then "" else "\n\n" ++ input.balancingInstruction) ++
    "\n\n" ++ body

end IntegrationInput

/-! ## The builders -/

/-- A prompt with what its builder is given. -/
inductive Prompt where
  /-- `PromptTemplate::render`. -/
  | rendered (template : String) (assignment : Assignment)
  /-- `llm_score_raw`. -/
  | score (settings : EvalSettings) (rubric output : String)
  | graft (input : GraftInput)
  | integration (input : IntegrationInput)
  | correction (synth : DomainSynthesis)
  | checklist (items : String)
  | feedbackHeader (retryCount attemptsRemaining : Nat)
  | repairHeader (retryCount : Nat) (scorePct : ℚ) (attemptsRemaining : Nat)
  | priorProposal (retryCount : Nat) (proposalText : String)
  | partialExample (n : Nat) (partialPass : PartialPass)
  /-- `MicroExplorerResolver::resolve`. -/
  | recovery (ctx : GapResolveContext)

namespace Prompt

/-- The text the builder returns. -/
def text : Prompt → String
  | rendered template a => renderTemplate template a.vars
  | score settings rubric output => (scoreRequest settings rubric output).task
  | graft input => buildGraftContext input
  | integration input => input.buildIntegrationWaveContext
  | correction synth => correctionSlot synth
  | checklist items => fillIn f1ComplianceChecklist "checklist_items" items
  | feedbackHeader retryCount attemptsRemaining =>
      fillIn (fillIn csprConstraintFeedbackHeader "retry_count" (toString retryCount))
        "attempts_remaining" (toString attemptsRemaining)
  | repairHeader retryCount scorePct attemptsRemaining =>
      fillIn (fillIn (fillIn csprRepairHeader "retry_count" (toString retryCount))
        "score_pct" (fixedText 0 scorePct)) "attempts_remaining" (toString attemptsRemaining)
  | priorProposal retryCount proposalText =>
      fillIn (fillIn csprPriorProposalBlock "retry_count" (toString retryCount))
        "prior_proposal_text" proposalText
  | partialExample n partialPass => partialBlock n partialPass
  | recovery ctx => recoveryTaskText ctx

def template : Prompt → String
  | rendered template _ => template
  | score .. => verificationTask
  | graft _ => h1GraftContext
  | integration _ => integrationWavePrompt
  | correction _ => i1SemanticRepairSlot
  | checklist _ => f1ComplianceChecklist
  | feedbackHeader .. => csprConstraintFeedbackHeader
  | repairHeader .. => csprRepairHeader
  | priorProposal .. => csprPriorProposalBlock
  | partialExample .. => f1PartialExample
  | recovery _ => recoveryTask

/-- The values, in the order in which the builder fills them in. -/
def assignment : Prompt → Assignment
  | rendered _ a => a
  | score _ rubric output =>
      ⟨[("rubric", rubric), ("output", output)], by simp, by simp⟩
  | graft input =>
      ⟨[("constraint_ids", ", ".intercalate input.constraintIds), ("base_text", input.baseText),
        ("candidate_text", input.candidateText)], by simp, by simp⟩
  | integration input =>
      ⟨[("constraint_count", toString input.constraintCount),
        ("partial_list", input.partialList)], by simp, by simp⟩
  | correction synth =>
      ⟨[("incorrect_pattern", synth.incorrectPattern), ("correct_pattern", synth.correctPattern),
        ("mechanistic_reason", synth.mechanisticReason),
        ("source_line", match synth.source with
          | some s => "SOURCE: " ++ s
          | none => "")], by simp, by simp⟩
  | checklist items => ⟨[("checklist_items", items)], by simp, by simp⟩
  | feedbackHeader retryCount attemptsRemaining =>
      ⟨[("retry_count", toString retryCount),
        ("attempts_remaining", toString attemptsRemaining)], by simp, by simp⟩
  | repairHeader retryCount scorePct attemptsRemaining =>
      ⟨[("retry_count", toString retryCount), ("score_pct", fixedText 0 scorePct),
        ("attempts_remaining", toString attemptsRemaining)], by simp, by simp⟩
  | priorProposal retryCount proposalText =>
      ⟨[("retry_count", toString retryCount), ("prior_proposal_text", proposalText)],
        by simp, by simp⟩
  | partialExample n p =>
      ⟨[("n", toString n), ("score", fixedText 2 p.score),
        ("covered_indices", ", ".intercalate
          ((p.passedCheckIndices.sort (· ≤ ·)).map fun i => toString (i + 1))),
        ("status_lines", "\n".intercalate (p.checkResults.map statusLine)),
        ("proposal_text", p.proposalText)], by simp, by simp⟩
  | recovery ctx =>
      let verifiedList := "\n- ".intercalate ctx.verifiedProvisionList
      ⟨[("gap_description", ctx.gap.description), ("constraint_text", ctx.constraintText),
        ("verified_provision_list",
          if verifiedList.isEmpty then "(none)" else "- " ++ verifiedList),
        ("draft_section", ctx.resolvedOutput)], by simp, by simp⟩

/-- What the builder writes before and after the filled template. -/
def frame : Prompt → String × String
  | graft input => (input.systemContext ++ "\n\n", "")
  | integration input =>
      (input.systemContextWithRubric ++
        (if input.balancingInstruction = "" then "" else "\n\n" ++ input.balancingInstruction) ++
        "\n\n", "")
  | correction _ => ("", "\n")
  | partialExample .. => ("\n\n", "")
  | _ => ("", "")

/-- Every builder renders its template with its values in the order of the assignment. -/
theorem text_eq (prompt : Prompt) :
    prompt.text = prompt.frame.1 ++ renderTemplate prompt.template prompt.assignment.vars
      ++ prompt.frame.2 := by
  cases prompt <;>
    simp only [text, frame, template, assignment, String.empty_append, String.append_empty] <;> rfl

/-- The prior proposal stands in the last two blocks of a retry. -/
theorem priorBlock_eq (input : MapeK.RepairInput) :
    priorBlock input =
      if input.priorProposalText = "" then
        "\n\n" ++ (feedbackHeader input.retryCount input.attemptsRemaining).text
      else
        "\n\n" ++ (repairHeader input.retryCount ((input.priorBestScore.map (· * 100)).getD 0)
            input.attemptsRemaining).text
          ++ pinsBlock (if input.passingConstraintPins.isEmpty then input.coupledConstraintHints
            else input.passingConstraintPins)
          ++ "\n" ++ (priorProposal input.retryCount input.priorProposalText).text := rfl

end Prompt

end ControlPlane.Source.Engine
