import ControlPlane.Source.Engine.Decomposition

/-!
# Coverage of the constraint domains

The coverage check appends a fallback slot for each domain that the answer leaves out and
the list is cut afterwards, by position or by similarity. The domains stay covered exactly
if the fallback slots name their domains and the cut spares the only slot that names one.
-/
namespace ControlPlane.Guarantees.DomainCoverage

open Lib Source.Constraints Source.Engine.Decomposition

variable {K : Type} [Field K] [LinearOrder K]

/-! ## Statement -/

/-- Every domain of the corpus is mentioned by some slot. -/
def Covers (x : Externals) (corpus : List ConstraintDoc) (slots : List ExplorerSlotConfig) :
    Prop :=
  ∀ domain ∈ constraintDomains corpus, ∃ s ∈ slots, mentions x s domain = true

/-- Whatever the slots are that come back. -/
def KeepsCoverage (input : DecompositionInput K) : Prop :=
  ∀ slots, runDecompositionAgent input = .ok slots → Covers input.externals input.corpus slots

/-- Without the slot at `i`, some domain that was mentioned is mentioned no longer. -/
def OnlyMention (x : Externals) (corpus : List ConstraintDoc) (slots : List ExplorerSlotConfig)
    (i : Nat) : Prop :=
  ∃ domain ∈ constraintDomains corpus, (∃ s ∈ slots, mentions x s domain = true) ∧
    ∀ s ∈ slots.eraseIdx i, mentions x s domain = false

/-- The slot the cut drops next: the one closest to its peers, or the last one. -/
def nextDropped (input : DecompositionInput K) : List ExplorerSlotConfig → Nat :=
  match input.embeddingModel with
  | some model => dropIdx input.sqrt model
  | none => fun slots => slots.length - 1

/-- The lists of slots that the cut drops a slot from. -/
def slotRounds (input : DecompositionInput K) (slots : List ExplorerSlotConfig) :
    List (List ExplorerSlotConfig) :=
  cutRounds (nextDropped input) (max input.nMax 1) slots.length slots

/-- The answered slots and their fallback slots mention every domain, and no slot that the
cut drops is the only one left that mentions a domain. -/
structure Spares (input : DecompositionInput K) (answered : List ExplorerSlotConfig) : Prop where
  mentioned : Covers input.externals input.corpus
    (withFallbacks input.externals input.corpus answered)
  spared : ∀ slots ∈ slotRounds input (withFallbacks input.externals input.corpus answered),
    ¬ OnlyMention input.externals input.corpus slots (nextDropped input slots)

/-! ## The cut -/

theorem cutSlots_eq (input : DecompositionInput K) (slots : List ExplorerSlotConfig) :
    cutSlots input.sqrt input.embeddingModel (max input.nMax 1) slots =
      cutDown (nextDropped input) (max input.nMax 1) slots.length slots := by
  unfold cutSlots nextDropped
  cases input.embeddingModel with
  | some model => rfl
  | none => exact (cutDown_last (Nat.le_add_left _ _)).symm

theorem covers_of_eraseIdx {x : Externals} {corpus : List ConstraintDoc}
    (slots : List ExplorerSlotConfig) (i : Nat) (h : Covers x corpus (slots.eraseIdx i)) :
    Covers x corpus slots := by
  intro domain hdomain
  obtain ⟨s, hs, hmentions⟩ := h domain hdomain
  exact ⟨s, List.mem_of_mem_eraseIdx hs, hmentions⟩

/-- Where all domains are mentioned, dropping a slot loses one exactly if it was its only
mention. -/
theorem covers_eraseIdx_iff {x : Externals} {corpus : List ConstraintDoc}
    {slots : List ExplorerSlotConfig} (h : Covers x corpus slots) (i : Nat) :
    Covers x corpus (slots.eraseIdx i) ↔ ¬ OnlyMention x corpus slots i := by
  constructor
  · intro hcovers ⟨domain, hdomain, _, hgone⟩
    obtain ⟨s, hs, hmentions⟩ := hcovers domain hdomain
    rw [hgone s hs] at hmentions
    cases hmentions
  · intro hspared domain hdomain
    by_contra hnone
    refine hspared ⟨domain, hdomain, h domain hdomain, fun s hs => ?_⟩
    rw [Bool.eq_false_iff]
    intro hmentions
    exact hnone ⟨s, hs, hmentions⟩

theorem cut_covers_iff (input : DecompositionInput K) (answered : List ExplorerSlotConfig) :
    Covers input.externals input.corpus
        (cutSlots input.sqrt input.embeddingModel (max input.nMax 1)
          (withFallbacks input.externals input.corpus answered)) ↔
      Spares input answered := by
  rw [cutSlots_eq, cutDown_iff covers_of_eraseIdx]
  constructor
  · intro ⟨hfirst, hrounds⟩
    refine ⟨hfirst, fun slots hslots => ?_⟩
    have hcovers := cutRounds_holds hfirst hrounds slots hslots
    exact (covers_eraseIdx_iff hcovers _).mp (hrounds slots hslots hcovers)
  · intro h
    refine ⟨h.mentioned, fun slots hslots hcovers => ?_⟩
    exact (covers_eraseIdx_iff hcovers _).mpr (h.spared slots hslots)

/-! ## The guarantee -/

theorem runDecompositionAgent_ok {input : DecompositionInput K}
    {slots : List ExplorerSlotConfig} :
    runDecompositionAgent input = .ok slots ↔
      ∃ answered, answeredSlots input = .ok answered ∧
        slots = cutSlots input.sqrt input.embeddingModel (max input.nMax 1)
          (withFallbacks input.externals input.corpus answered) := by
  unfold runDecompositionAgent
  cases hanswer : answeredSlots input with
  | error e => simp [bind, Except.bind]
  | ok answered => simp [bind, Except.bind, pure, Except.pure, eq_comm]

/-- What comes back is a part of the answered slots and their fallback slots, within the
limit. -/
theorem runDecompositionAgent_slots {input : DecompositionInput K}
    {slots : List ExplorerSlotConfig} (h : runDecompositionAgent input = .ok slots) :
    slots.length ≤ max input.nMax 1 ∧ ∃ answered, answeredSlots input = .ok answered ∧
      slots.Sublist (withFallbacks input.externals input.corpus answered) := by
  obtain ⟨answered, hanswered, rfl⟩ := runDecompositionAgent_ok.mp h
  rw [cutSlots_eq]
  refine ⟨?_, answered, hanswered, cutDown_sublist _ _ _ _⟩
  apply cutDown_length
  · intro slots hover
    have hsome : 0 < slots.length := (Nat.zero_le _).trans_lt hover
    unfold nextDropped
    cases input.embeddingModel with
    | some model => exact dropIdx_lt input.sqrt model hsome
    | none => exact Nat.sub_lt hsome Nat.one_pos
  · exact Nat.le_add_left _ _

/-- For every corpus and limit, with and without a model, and every answer. -/
theorem keepsCoverage_iff (input : DecompositionInput K) :
    KeepsCoverage input ↔
      ∀ answered, answeredSlots input = .ok answered → Spares input answered := by
  constructor
  · intro h answered hanswered
    rw [← cut_covers_iff]
    exact h _ (runDecompositionAgent_ok.mpr ⟨answered, hanswered, rfl⟩)
  · intro h slots hslots
    obtain ⟨answered, hanswered, rfl⟩ := runDecompositionAgent_ok.mp hslots
    exact (cut_covers_iff input answered).mpr (h answered hanswered)

/-! ## Domains without a slot -/

def taggedDoc (id : String) (domains : List String) : ConstraintDoc where
  id := id
  sourceFile := "constraints.yaml"
  description := ""
  severity := .hard (1 / 2)
  predicate := .llmJudge "The design satisfies the constraint."
  remediationHint := none
  domains := domains
  mandatoryForTags := []
  relatedTo := []
  binaryChecks := []
  version := 1
  repairProvenance := none
  passCriteria := none

def rawSlot (roleFrame focusMandate : String) : RawSlot where
  roleFrame := roleFrame
  cotStyle := "step_by_step"
  focusMandate := some focusMandate
  rejectionCriteria := none
  constraintDomains := []
  searchEnabled := false
  agentRole := .executor

/-- A decomposition whose answer parses to the given slots. -/
def answering (corpus : List ConstraintDoc) (raw : List RawSlot) : DecompositionInput ℚ where
  externals := asciiExternals
  json := { valueLength := fun text => some text.length, fromStr := fun _ => .ok raw }
  sqrt := id
  embeddingModel := none
  corpus := corpus
  nMax := 2
  analysis := .ok "analysis"
  roles := .ok "roles"
  jsonOutput := .ok "[slots]"

/-- The answer fills the limit and the fallback slot for `security` is cut. -/
def cutInput : DecompositionInput ℚ :=
  answering [taggedDoc "C-1" ["auth", "security"]]
    [rawSlot "You are an identity engineer." "Own the auth flow.",
      rawSlot "You are an auth auditor." "Own the token checks."]

/-- The fallback slot for `billing` is kept and does not name its domain. -/
def silentInput : DecompositionInput ℚ :=
  answering [taggedDoc "C-1" ["billing"]] [rawSlot "You are a ledger architect." "Own idempotency."]

/-- Slots that come back mention each domain. -/
theorem KeepsCoverage.mentioned {input : DecompositionInput K} (h : KeepsCoverage input)
    {domain : String} (hdomain : domain ∈ constraintDomains input.corpus) :
    (runDecompositionAgent input).toOption.all (fun slots =>
      slots.any fun s => mentions input.externals s domain) = true := by
  cases hrun : runDecompositionAgent input with
  | error e => rfl
  | ok slots =>
      obtain ⟨s, hs, hmentions⟩ := h slots hrun domain hdomain
      exact List.any_eq_true.mpr ⟨s, hs, hmentions⟩

/-- Over ASCII a mention is looked for among the lower-case characters. -/
theorem mentions_ascii (s : ExplorerSlotConfig) (domain : String) :
    mentions asciiExternals s domain =
      (Source.Text.containsText (s.focusMandate.toList.map Char.toLower)
          (domain.toList.map Char.toLower) ||
        Source.Text.containsText (s.roleFrame.toList.map Char.toLower)
          (domain.toList.map Char.toLower)) := by
  simp only [mentions, asciiExternals, String.toList_map]

theorem coverage_lost :
    (constraintDomains cutInput.corpus).length ≤ cutInput.nMax ∧ ¬ KeepsCoverage cutInput ∧
      (constraintDomains silentInput.corpus).length ≤ silentInput.nMax ∧
      ¬ KeepsCoverage silentInput := by
  refine ⟨by decide +kernel, fun h => ?_, by decide +kernel, fun h => ?_⟩
  · have hsecurity : "security" ∈ constraintDomains cutInput.corpus := by decide +kernel
    have hmentioned := h.mentioned hsecurity
    have hascii : cutInput.externals = asciiExternals := rfl
    simp only [hascii, mentions_ascii] at hmentioned
    exact absurd hmentioned (by decide +kernel)
  · have hbilling : "billing" ∈ constraintDomains silentInput.corpus := by decide +kernel
    have hmentioned := h.mentioned hbilling
    have hascii : silentInput.externals = asciiExternals := rfl
    simp only [hascii, mentions_ascii] at hmentioned
    exact absurd hmentioned (by decide +kernel)

end ControlPlane.Guarantees.DomainCoverage
