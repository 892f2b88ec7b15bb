import ControlPlane.Source.MapeK.Partials
import ControlPlane.Source.MapeK.RetryPolicy
import Mathlib.Data.Finset.Sort
import Mathlib.Data.String.Basic
import Mathlib.Data.Sym.Sym2

/-!
# Repair context

Embeds `build_repair_context` of `crates/h2ai-autonomic/src/repair.rs` with the
prompt templates of `crates/h2ai-types/src/prompts.rs` and
`crates/h2ai-config/src/prompts.rs`: the text a targeted retry hands to the next
wave. Everything but the domain corrections stands behind the system context.
-/
namespace ControlPlane.Source.MapeK

open Verification Constraints

/-! ## Templates -/

/-- `str::replace` of one placeholder in braces. -/
def fillIn (template name value : String) : String :=
  String.ofList (Text.replaceText template.toList ("\x7b" ++ name ++ "\x7d").toList value.toList)

def roundHalfEven (q : ℚ) : Int :=
  if q - ⌊q⌋ < 1 / 2 then ⌊q⌋
  else if 1 / 2 < q - ⌊q⌋ then ⌊q⌋ + 1
  else if ⌊q⌋ % 2 = 0 then ⌊q⌋ else ⌊q⌋ + 1

/-- A number with a fixed count of decimals, as `{:.0}` and `{:.2}` print it. -/
def fixedText (decimals : Nat) (q : ℚ) : String :=
  let scaled := (roundHalfEven (|q| * 10 ^ decimals)).natAbs
  let fraction := toString (scaled % 10 ^ decimals)
  (if q < 0 then "-" else "") ++ toString (scaled / 10 ^ decimals) ++
    if decimals = 0 then ""
    else "." ++ String.ofList (List.replicate (decimals - fraction.length) '0') ++ fraction

def i1SemanticRepairSlot : String :=
  "══ DOMAIN KNOWLEDGE CORRECTION ══════════════════════════════════════════════════\n" ++
    "The following beliefs were identified as INCORRECT in your prior attempt.\n" ++
    "You MUST replace these beliefs before generating a new proposal.\n" ++
    "Proposals that repeat the wrong belief will be rejected.\n" ++
    "\n" ++
    "PRIOR APPROACH: \x7bincorrect_pattern\x7d\n" ++
    "CORRECT BELIEF: \x7bcorrect_pattern\x7d\n" ++
    "WHY THIS MATTERS: \x7bmechanistic_reason\x7d\n" ++
    "\x7bsource_line\x7d\n" ++
    "══════════════════════════════════════════════════════════════════════════════════\n"

def f1ComplianceChecklist : String :=
  "--- COMPLIANCE CHECKLIST (satisfy ALL of the following) ---\n" ++
    "\x7bchecklist_items\x7d\n" ++
    "Your response MUST satisfy every item above. " ++
    "Check each one explicitly before finalising.\n" ++
    "--- END CHECKLIST ---"

def f1PartialExample : String :=
  "--- PARTIAL EXAMPLE \x7bn\x7d (score=\x7bscore\x7d, " ++
    "covers checks: \x7bcovered_indices\x7d) ---\n" ++
    "The following proposal satisfies SOME but not ALL constraints.\n" ++
    "Use it as a source of correct techniques — do NOT copy its failures.\n\n" ++
    "Per-constraint status:\n" ++
    "\x7bstatus_lines\x7d\n\n" ++
    "Proposal text (may be truncated):\n" ++
    "\x7bproposal_text\x7d\n" ++
    "--- END PARTIAL EXAMPLE \x7bn\x7d ---"

def f1PartialSynthesisInstruction : String :=
  "SYNTHESIS TASK: Produce a single proposal that combines the SATISFIED approaches\n" ++
    "from the examples above, while fixing all FAILED items. Do not introduce any\n" ++
    "pattern not already justified above."

def csprRepairHeader : String :=
  "--- REPAIR INSTRUCTIONS (wave \x7bretry_count\x7d) ---\n" ++
    "The prior proposal below scored \x7bscore_pct\x7d%. " ++
    "Apply TARGETED repairs only — do NOT rewrite sections that already comply.\n" ++
    "\x7battempts_remaining\x7d attempt(s) remaining."

def csprPassingPinsHeader : String :=
  "PASSING CONSTRAINTS — satisfied in the prior proposal. " ++
    "Preserve their compliance exactly. Do NOT alter these sections:"

def csprPriorProposalBlock : String :=
  "--- PRIOR PROPOSAL (wave \x7bretry_count\x7d, repair anchor) ---\n" ++
    "\x7bprior_proposal_text\x7d\n" ++
    "--- END PRIOR PROPOSAL ---"

def csprConstraintFeedbackHeader : String :=
  "--- CONSTRAINT FEEDBACK (iteration \x7bretry_count\x7d) ---\n" ++
    "The following constraints were violated. Fix ALL of these in your next response:\n\n" ++
    "\x7battempts_remaining\x7d retry attempt(s) remaining."

/-! ## Input -/

/-- `DomainSynthesis`, the fields that are printed. -/
structure DomainSynthesis where
  incorrectPattern : String
  correctPattern : String
  mechanisticReason : String
  source : Option String
  deriving DecidableEq, Repr

/-- A constraint id with what is known about passing it. -/
abbrev PinHint := String × Option String

structure RepairInput where
  priorProposalText : String
  targets : List RepairTarget
  zone3Hints : Option String
  /-- `conflict_pairs` of the conflict graph, each pair in canonical order. -/
  conflictPairs : List (String × String)
  retryCount : Nat
  attemptsRemaining : Nat
  systemContextWithRubric : String
  checks : List String
  partialPasses : List PartialPass
  priorBestScore : Option ℚ
  domainSyntheses : List DomainSynthesis
  coupledConstraintHints : List PinHint
  passingConstraintPins : List PinHint

/-! ## Blocks -/

def correctionSlot (synth : DomainSynthesis) : String :=
  let sourceLine := match synth.source with
    | some s => "SOURCE: " ++ s
    | none => ""
  fillIn (fillIn (fillIn (fillIn i1SemanticRepairSlot "incorrect_pattern" synth.incorrectPattern)
    "correct_pattern" synth.correctPattern) "mechanistic_reason" synth.mechanisticReason)
    "source_line" sourceLine ++ "\n"

/-- The domain corrections, in front of everything else. -/
def correctionBlock (syntheses : List DomainSynthesis) : String :=
  let block := String.join (syntheses.map correctionSlot)
  if block = "" then "" else block ++ "\n"

def checklistBlock (retryCount : Nat) (checks : List String) : String :=
  if 1 ≤ retryCount ∧ checks ≠ [] then
    "\n\n" ++ fillIn f1ComplianceChecklist "checklist_items"
      ("\n".intercalate (checks.mapIdx fun i c => toString (i + 1) ++ ". " ++ c))
  else ""

def pinLine (pin : PinHint) : String :=
  match pin.2 with
  | some h => if h = "" then "  ✓ " ++ pin.1 ++ "\n" else "  ✓ " ++ pin.1 ++ ": " ++ h ++ "\n"
  | none => "  ✓ " ++ pin.1 ++ "\n"

def pinsBlock (pins : List PinHint) : String :=
  if pins.isEmpty then ""
  else "\n\n" ++ csprPassingPinsHeader ++ "\n" ++ String.join (pins.map pinLine)

/-- Framing and anchor of the prior proposal, or the plain feedback header. -/
def priorBlock (input : RepairInput) : String :=
  if input.priorProposalText = "" then
    "\n\n" ++ fillIn (fillIn csprConstraintFeedbackHeader "retry_count" (toString input.retryCount))
      "attempts_remaining" (toString input.attemptsRemaining)
  else
    let scorePct := (input.priorBestScore.map (· * 100)).getD 0
    let header := fillIn (fillIn (fillIn csprRepairHeader "retry_count" (toString input.retryCount))
      "score_pct" (fixedText 0 scorePct)) "attempts_remaining" (toString input.attemptsRemaining)
    let pins := if input.passingConstraintPins.isEmpty then input.coupledConstraintHints
      else input.passingConstraintPins
    "\n\n" ++ header ++ pinsBlock pins ++ "\n" ++
      fillIn (fillIn csprPriorProposalBlock "retry_count" (toString input.retryCount))
        "prior_proposal_text" input.priorProposalText

def canonicalPair (a b : String) : String × String := if a ≤ b then (a, b) else (b, a)

def areConflicting (pairs : List (String × String)) (a b : String) : Bool :=
  pairs.contains (canonicalPair a b)

/-- The first conflicting pair, in the order of the nested loops. -/
def firstConflict (pairs : List (String × String)) : List String → Option (String × String)
  | [] => none
  | a :: rest =>
      match rest.find? (areConflicting pairs a) with
      | some b => some (a, b)
      | none => firstConflict pairs rest

def conflictBlock (pairs : List (String × String)) (targets : List RepairTarget) : String :=
  match firstConflict pairs (targets.map (·.constraintId)) with
  | some (a, b) =>
      "\n\n[COMPETING CONSTRAINTS DETECTED: " ++ a ++ " and " ++ b ++
        " have conflicting requirements.\nResolution: Fix " ++ a ++
        " first (hard gate), then verify " ++ b ++ " is still satisfied.\n" ++
        "If both cannot be satisfied simultaneously, satisfy " ++ a ++ " and explain why " ++ b ++
        "\ncannot be met. Do not attempt to satisfy both by contradiction.]"
  | none => ""

def targetHead (n : Nat) (target : RepairTarget) : String :=
  "\n\nREPAIR TARGET " ++ toString n ++ " — " ++ target.constraintId ++
    ":\n\nCONSTRAINT REQUIREMENT (authoritative):\n  " ++ target.constraintDescription ++ "\n\n"

/-- The sandwich template: verifier reasons, else a static hint, else the description. -/
def targetBlock (n : Nat) (target : RepairTarget) : String :=
  match target.verifierReasons with
  | (primaryScore, primaryReason) :: alternatives =>
      let pass := target.criteriaPass.filter (· ≠ "")
      let behaviour := match pass with
        | some p => "TARGET BEHAVIOR:\n  " ++ String.ofList (Text.trim p.toList) ++ "\n\n"
        | none => ""
      let task := match pass with
        | some _ => "Produce a new proposal that satisfies the target behavior above."
        | none => "Produce a new proposal that satisfies the constraint requirement."
      targetHead n target ++ "VERIFIER INTERPRETATION (best attempt: " ++
        fixedText 0 (primaryScore * 100) ++ "% compliance):\n  " ++ primaryReason ++ "\n\n" ++
        behaviour ++ "YOUR TASK:\n  " ++ task ++
        String.join (alternatives.map fun alt => "\n\n  ALTERNATIVE DIAGNOSIS (" ++
          fixedText 0 (alt.1 * 100) ++ "% attempt): " ++ alt.2)
  | [] =>
      let guidance := match target.remediationHint with
        | some hint => "GUIDANCE:\n  " ++ hint ++ "\n\n"
        | none => ""
      targetHead n target ++ guidance ++ "YOUR TASK:\n  " ++
        "Produce a new proposal that satisfies the constraint requirement above."

def coupledLine (hint : PinHint) : String :=
  let unguided := "\n  - " ++ hint.1 ++
    ": (no additional guidance — ensure this constraint remains satisfied)"
  match hint.2 with
  | some h => if h = "" then unguided else "\n  - " ++ hint.1 ++ ": " ++ h
  | none => unguided

def coupledBlock (hints : List PinHint) : String :=
  if hints.isEmpty then ""
  else
    "\n\n[RELATED CONSTRAINTS THAT MUST NOT BE BROKEN WHILE REPAIRING THE TARGETS ABOVE:" ++
      String.join (hints.map coupledLine) ++
      "\nFix the REPAIR TARGET(s) above without violating these related constraints.]"

def zone3Block (hints : Option String) : String :=
  match hints with
  | some h =>
      if h = "" then ""
      else "\n\n--- OSP AUDIT CONTEXT ---\n" ++ h ++ "\n--- END OSP AUDIT CONTEXT ---"
  | none => ""

def statusLine (result : Nat × String × Bool) : String :=
  if result.2.2 then "  ✓ " ++ result.2.1 ++ "  ← SATISFIED (reuse this approach)"
  else "  ✗ " ++ result.2.1 ++ "  ← FAILED (do not repeat this pattern)"

def partialBlock (n : Nat) (p : PartialPass) : String :=
  let indices := p.passedCheckIndices.sort (· ≤ ·)
  "\n\n" ++ fillIn (fillIn (fillIn (fillIn (fillIn f1PartialExample "n" (toString n))
    "score" (fixedText 2 p.score))
    "covered_indices" (", ".intercalate (indices.map fun i => toString (i + 1))))
    "status_lines" ("\n".intercalate (p.checkResults.map statusLine)))
    "proposal_text" p.proposalText

def partialsBlock (partials : List PartialPass) : String :=
  if partials.isEmpty then ""
  else
    String.join (partials.mapIdx fun i p => partialBlock (i + 1) p) ++ "\n\n" ++
      f1PartialSynthesisInstruction

/-! ## The context -/

/-- What follows the system context. -/
def repairInstructions (input : RepairInput) : String :=
  checklistBlock input.retryCount input.checks ++ priorBlock input ++
    conflictBlock input.conflictPairs input.targets ++
    String.join (input.targets.mapIdx fun i t => targetBlock (i + 1) t) ++
    coupledBlock input.coupledConstraintHints ++ zone3Block input.zone3Hints ++
    partialsBlock input.partialPasses ++ "\n\n--- END REPAIR INSTRUCTIONS ---"

/-- `build_repair_context`. -/
def buildRepairContext (input : RepairInput) : String :=
  correctionBlock input.domainSyntheses ++ input.systemContextWithRubric ++
    repairInstructions input

/-! ## Conflicting pairs -/

theorem canonicalPair_eq_iff {a b c d : String} :
    canonicalPair a b = canonicalPair c d ↔ s(a, b) = s(c, d) := by
  unfold canonicalPair
  constructor
  · intro h
    split_ifs at h <;> simp_all
  · intro h
    rcases Sym2.eq_iff.mp h with ⟨rfl, rfl⟩ | ⟨rfl, rfl⟩
    · rfl
    · split_ifs with hab hba hba
      · rw [le_antisymm hab hba]
      · rfl
      · rfl
      · exact absurd ((le_total a b).resolve_left hab) hba

theorem areConflicting_comm (pairs : List (String × String)) (a b : String) :
    areConflicting pairs a b = areConflicting pairs b a := by
  unfold areConflicting
  rw [canonicalPair_eq_iff.mpr Sym2.eq_swap]

theorem firstConflict_eq_none {pairs : List (String × String)} {ids : List String}
    (h : ∀ a ∈ ids, ∀ b ∈ ids, a ≠ b → areConflicting pairs a b = false) (nodup : ids.Nodup) :
    firstConflict pairs ids = none := by
  induction ids with
  | nil => rfl
  | cons a rest ih =>
      obtain ⟨hfresh, hrest⟩ := List.nodup_cons.mp nodup
      have hfind : rest.find? (areConflicting pairs a) = none := by
        rw [List.find?_eq_none]
        intro b hb
        have hne : a ≠ b := fun heq => hfresh (heq ▸ hb)
        simp [h a List.mem_cons_self b (List.mem_cons_of_mem a hb) hne]
      rw [firstConflict, hfind]
      apply ih _ hrest
      intro x hx y hy
      exact h x (List.mem_cons_of_mem a hx) y (List.mem_cons_of_mem a hy)

/-- Two conflicting constraints that stand first are the pair that is named. -/
theorem firstConflict_cons_cons {pairs : List (String × String)} {a b : String}
    (h : areConflicting pairs a b = true) (rest : List String) :
    firstConflict pairs (a :: b :: rest) = some (a, b) := by
  rw [firstConflict, List.find?_cons, h]

end ControlPlane.Source.MapeK
