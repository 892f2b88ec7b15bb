import ControlPlane.Source.Engine.ContextAssembler
import ControlPlane.Source.Engine.PromptBuilders

/-!
# What a wave's prompts contain

A prompt that fits its budget after the rule pass has the active context of the wave,
with its layout cleaned up, unless the prompt of the same slot in the wave before has it
verbatim: then a marker stands in its place.
-/
namespace ControlPlane.Guarantees.WavePrompts

open Source Source.Text Source.Engine

/-- The text has the context with its layout cleaned up, and so each of its visible lines. -/
structure Carries (text context : List Char) : Prop where
  cleaned : dedupBlocks context <:+: text
  everyLine : ∀ line ∈ lines context, trimEnd line ≠ [] → trimEnd line <:+: text

/-- The prompt that the slot had in the wave before contains the text verbatim. -/
def SentBefore (prev : Option AssembledContext) (text : List Char) : Prop :=
  ∃ p, prev = some p ∧ text <:+: p.text

/-- The estimate that `build` compares with the budget. -/
def FitsBudget (settings : AssemblySettings) (input : ContextAssemblerInput) : Prop :=
  ∃ budget, input.budget = some budget ∧
    totalTokens (ruledSections settings.isDecimalDigit input).1 ≤ budget

/-- What the prompt of a slot has of the active context and of its other sections. -/
structure PromptDelivers (settings : AssemblySettings) (prev : Option AssembledContext)
    (wave : PromptWave) (slot : SlotPieces) : Prop where
  carried : ¬ SentBefore prev wave.activeCtx → Carries
    (assemble settings.isDecimalDigit (slotInput settings wave prev slot)).text wave.activeCtx
  omitted : SentBefore prev wave.activeCtx → wave.activeCtx ≠ [] → omittedMarker 1 <:+:
    (assemble settings.isDecimalDigit (slotInput settings wave prev slot)).text
  /-- Only a section that the slot's last prompt has verbatim is replaced, and none that is
  preserved. -/
  others : ∀ s ∈ buildSections (slotInput settings wave prev slot),
    (s.preserve = true → s.text <:+:
        (assemble settings.isDecimalDigit (slotInput settings wave prev slot)).text) ∧
      (s.preserve = false → ¬ SentBefore prev s.text → Carries
        (assemble settings.isDecimalDigit (slotInput settings wave prev slot)).text s.text)

/-! ## Cleaned up contexts -/

theorem carries_of_infix {text context : List Char} (h : dedupBlocks context <:+: text) :
    Carries text context :=
  ⟨h, fun _ hline hvisible => (infix_dedupBlocks hline hvisible).trans h⟩

theorem dedupBlocks_nil : dedupBlocks [] = [] := by decide +kernel

/-- A text that is there in the end is a paragraph of its own. -/
theorem infix_sectionsToText {sections : List Section} {t : List Char}
    (h : t ∈ sections.map (·.text)) : t <:+: sectionsToText sections := by
  rw [sectionsToText_eq]
  by_cases ht : t = []
  · rw [ht]
    exact List.nil_infix
  · exact infix_joinParagraphs (List.mem_filter.mpr ⟨h, by simpa using ht⟩)

/-- The section of a non-empty active context. -/
theorem activeSection_mem {settings : AssemblySettings} {prev : Option AssembledContext}
    {wave : PromptWave} {slot : SlotPieces} (h : wave.activeCtx ≠ []) :
    (⟨.activeCtx, wave.activeCtx, 7 / 10, false⟩ : Section) ∈
      buildSections (slotInput settings wave prev slot) := by
  have hpiece : pieceSection .activeCtx (7 / 10) false
      (some (slotInput settings wave prev slot).activeCtx) =
      [⟨.activeCtx, wave.activeCtx, 7 / 10, false⟩] := by
    unfold pieceSection slotInput
    simp [h]
  unfold buildSections
  rw [hpiece]
  simp

/-! ## One prompt -/

section Prompt

variable {settings : AssemblySettings} {prev : Option AssembledContext} {wave : PromptWave}
  {slot : SlotPieces}

theorem assemble_fits {input : ContextAssemblerInput} (fits : FitsBudget settings input) :
    (assemble settings.isDecimalDigit input).text =
      sectionsToText (ruledSections settings.isDecimalDigit input).1 := by
  obtain ⟨budget, hbudget, hfits⟩ := fits
  unfold assemble
  rw [hbudget]
  dsimp only
  rw [if_pos hfits]

/-- What the rule pass makes of a section stands in a prompt that fits. -/
theorem ruled_infix (fits : FitsBudget settings (slotInput settings wave prev slot))
    {s : Section} (h : s ∈ buildSections (slotInput settings wave prev slot)) :
    (ruleSection prev (if prev.isSome then 1 else 0) s).text <:+:
      (assemble settings.isDecimalDigit (slotInput settings wave prev slot)).text := by
  rw [assemble_fits fits]
  apply infix_sectionsToText
  rw [ruledSections_texts]
  exact List.mem_map.mpr ⟨s, h, rfl⟩

/-- A section that may be replaced and was not sent before is cleaned up. -/
theorem ruleSection_fresh {s : Section} (hkeep : s.preserve = false)
    (hfresh : ¬ SentBefore prev s.text) (n : Nat) :
    (ruleSection prev n s).text = dedupBlocks s.text := by
  unfold ruleSection
  rw [if_neg (by rw [hkeep]; exact Bool.false_ne_true), if_neg]
  rw [deltaApplies_iff]
  rintro ⟨_, _, hsent⟩
  exact hfresh hsent

theorem ruleSection_sent {s : Section} (hkeep : s.preserve = false) (hne : s.text ≠ [])
    (hsent : SentBefore prev s.text) (n : Nat) :
    (ruleSection prev n s).text = omittedMarker n := by
  unfold ruleSection
  rw [if_neg (by rw [hkeep]; exact Bool.false_ne_true), if_pos]
  exact deltaApplies_iff.mpr ⟨hkeep, hne, hsent⟩

theorem promptDelivers (fits : FitsBudget settings (slotInput settings wave prev slot)) :
    PromptDelivers settings prev wave slot := by
  have hfresh : ∀ s ∈ buildSections (slotInput settings wave prev slot), s.preserve = false →
      ¬ SentBefore prev s.text → Carries
        (assemble settings.isDecimalDigit (slotInput settings wave prev slot)).text s.text := by
    intro s hs hkeep hnew
    have hruled := ruled_infix fits hs
    rw [ruleSection_fresh hkeep hnew] at hruled
    exact carries_of_infix hruled
  refine ⟨fun hnew => ?_, fun hsent hne => ?_, fun s hs => ⟨fun hpreserve => ?_, hfresh s hs⟩⟩
  · by_cases hempty : wave.activeCtx = []
    · rw [hempty]
      refine carries_of_infix ?_
      rw [dedupBlocks_nil]
      exact List.nil_infix
    · exact hfresh _ (activeSection_mem hempty) rfl hnew
  · have hruled := ruled_infix fits (activeSection_mem hne)
    rw [ruleSection_sent rfl hne hsent] at hruled
    have hsome : prev.isSome = true := by
      obtain ⟨p, hp, _⟩ := hsent
      rw [hp]
      rfl
    rwa [if_pos hsome] at hruled
  · have hruled := ruled_infix fits hs
    unfold ruleSection at hruled
    rwa [if_pos hpreserve] at hruled

end Prompt

/-- What a slot is compared with is the prompt that it had in the wave before. -/
theorem prevOf_wave {settings : AssemblySettings} {waves : List (Option PromptWave)}
    {wave : PromptWave} {slot : SlotPieces} {idx : Nat} (h : wave.slots[idx]? = some slot) :
    prevOf (runContexts settings (waves ++ [some wave])) idx =
      some (slotContext settings (runContexts settings waves) wave (slot, idx)) := by
  have hslot : wave.slots.zipIdx[idx]? = some (slot, idx) := by
    rw [List.getElem?_zipIdx, h, Option.map_some, Nat.zero_add]
  unfold prevOf
  rw [runContexts, List.foldl_append, List.foldl_cons, List.foldl_nil, nextContexts,
    List.getElem?_map, hslot]
  rfl

/-- In every wave of a run and for every slot, a prompt that fits the budget has the active
context of the wave unless the slot's prompt in the wave before has it. -/
theorem wave_prompts (settings : AssemblySettings) (waves : List (Option PromptWave))
    (wave : PromptWave) (slot : SlotPieces) (idx : Nat)
    (fits : FitsBudget settings
      (slotInput settings wave (prevOf (runContexts settings waves) idx) slot)) :
    PromptDelivers settings (prevOf (runContexts settings waves) idx) wave slot :=
  promptDelivers fits

/-! ## Two waves with the same context -/

def plainSlot : SlotPieces := ⟨none, none, none, none, none, none, none, none, none⟩

def jwtWave : PromptWave := ⟨"Use JWT.".toList, none, [plainSlot], none⟩

def budgetSettings : AssemblySettings := ⟨Char.isDigit, some 100, none⟩

theorem first_wave_carries :
    Carries (assemble Char.isDigit (slotInput budgetSettings jwtWave none plainSlot)).text
      jwtWave.activeCtx :=
  (wave_prompts budgetSettings [] jwtWave plainSlot 0 ⟨100, rfl, by decide +kernel⟩).carried
    (by rintro ⟨p, hp, _⟩; cases hp)

/-- The second wave's prompt fits, and has a marker for its active context. -/
theorem second_wave_omits :
    FitsBudget budgetSettings (slotInput budgetSettings jwtWave
        (prevOf (runContexts budgetSettings [some jwtWave]) 0) plainSlot) ∧
      ¬ Carries (assemble Char.isDigit (slotInput budgetSettings jwtWave
        (prevOf (runContexts budgetSettings [some jwtWave]) 0) plainSlot)).text
        jwtWave.activeCtx := by
  refine ⟨⟨100, rfl, by decide +kernel⟩, fun carries => ?_⟩
  have hline := carries.everyLine "Use JWT.".toList (by decide +kernel) (by decide +kernel)
  revert hline
  decide +kernel

end ControlPlane.Guarantees.WavePrompts

/-!
## Filling in prompts

A builder fills in one variable after another, and each pass reads the values of the
passes before it. The prompt is the template with every placeholder replaced, and no
text of a value is expanded, exactly when each variable finds the placeholders of the
template and no others.
-/
namespace ControlPlane.Guarantees.PromptFilling

open Source Source.Engine Source.Verification

/-- The builder returns the template with its values in their places, and no pass
expands what an earlier one put in. -/
structure FilledAtOnce (prompt : Prompt) : Prop where
  returned : prompt.text
    = prompt.frame.1 ++ substitute prompt.template prompt.assignment.vars ++ prompt.frame.2
  neverExpanded : FilledVerbatim prompt.template prompt.assignment.vars

/-- In any order the values stand verbatim, with one result. -/
def FilledInAnyOrder (template : String) (a : Assignment) : Prop :=
  ∀ order : List (String × String), order.Perm a.vars →
    FilledVerbatim template order ∧ renderTemplate template order = renderTemplate template a.vars

theorem filledAtOnce_of_verbatim {prompt : Prompt}
    (filled : FilledVerbatim prompt.template prompt.assignment.vars) : FilledAtOnce prompt where
  returned := by rw [prompt.text_eq, filled.whole]
  neverExpanded := filled

theorem rendered_of_reorder {template : String} {a : Assignment} {order : List (String × String)}
    (same : order.Perm a.vars) (filled : FilledVerbatim template a.vars)
    (reordered : FilledVerbatim template order) :
    renderTemplate template order = renderTemplate template a.vars :=
  calc renderTemplate template order
      = substitute template order := reordered.whole
    _ = substitute template a.vars := substitute_reorder template a same
    _ = renderTemplate template a.vars := filled.whole.symm

theorem filledInAnyOrder_iff (template : String) (a : Assignment) :
    FilledInAnyOrder template a ↔
      ∀ order : List (String × String), order.Perm a.vars → KeepsPlaceholders template order := by
  constructor
  · intro filled order same
    exact (filledVerbatim_iff template (a.reorder same)).mp (filled order same).1
  · intro keeps order same
    have reordered : FilledVerbatim template order :=
      (filledVerbatim_iff template (a.reorder same)).mpr (keeps order same)
    have filled := (filledVerbatim_iff template a).mpr (keeps a.vars (List.Perm.refl _))
    exact ⟨reordered, rendered_of_reorder same filled reordered⟩

/-- A prompt is filled at once exactly when each variable, in its turn, finds the
placeholders of the template; in any order exactly when that holds of every order. -/
theorem filledAtOnce_iff (prompt : Prompt) :
    (FilledAtOnce prompt ↔ KeepsPlaceholders prompt.template prompt.assignment.vars) ∧
      (FilledInAnyOrder prompt.template prompt.assignment ↔
        ∀ order : List (String × String), order.Perm prompt.assignment.vars →
          KeepsPlaceholders prompt.template order) := by
  refine ⟨?_, filledInAnyOrder_iff prompt.template prompt.assignment⟩
  rw [← filledVerbatim_iff]
  constructor
  · intro filled
    exact filled.neverExpanded
  · intro filled
    exact filledAtOnce_of_verbatim filled

def plainSettings : EvalSettings where
  systemPrompt := "Judge."
  tau := 0
  maxTokens := 100
  consensusPasses := 1

/-- A rubric that names the slot of the proposal: the judge reads the proposal in the
criterion. -/
def slotRubric : Prompt := .score plainSettings "Fill \x7boutput\x7d." "All good."

theorem slotRubric_text :
    slotRubric.text = "Criterion:\nFill All good..\n\nProposal:\nAll good." ∧
      substitute slotRubric.template slotRubric.assignment.vars
        = "Criterion:\nFill \x7boutput\x7d.\n\nProposal:\nAll good." := by
  decide +kernel

theorem proposal_fills_the_rubric :
    ¬ (∀ prompt : Prompt, FilledAtOnce prompt ∧
      FilledInAnyOrder prompt.template prompt.assignment) := by
  intro all
  have returned := (all slotRubric).1.returned
  obtain ⟨built, meant⟩ := slotRubric_text
  rw [built, meant] at returned
  exact absurd returned (by decide +kernel)

end ControlPlane.Guarantees.PromptFilling
