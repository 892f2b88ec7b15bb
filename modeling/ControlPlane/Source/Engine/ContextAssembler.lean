import ControlPlane.Source.Layout
import Mathlib.Algebra.Order.Field.Rat
import Mathlib.Data.List.Sort
import Mathlib.Data.Rat.Floor

/-!
# The context assembler

Embeds `crates/h2ai-orchestrator/src/context_assembler.rs`: the two enumerations of the
pieces of a prompt, and `ContextAssembler::build` with its rule pass, the trimming by
importance and the summarization by a language model; and how generation threads the
assembled contexts of a wave into the next one. Ratios and importances are exact
rationals, and the Unicode table behind `\d` is a parameter.
-/
namespace ControlPlane.Source.Engine

open Text

inductive SectionTag where
  | leaderPrefix | grounding | activeCtx | retryContext | roleFrame | mandate
  | rejectionCriteria | tombstone | globalKnowledge | topicKnowledge | constraintTension
  | complianceChecklist
  deriving DecidableEq, Repr

structure Section where
  tag : SectionTag
  text : List Char
  importance : ℚ
  preserve : Bool
  deriving DecidableEq

inductive CompressionKind where
  | none | ruleBased | importanceScored | llmSummarized
  deriving DecidableEq, Repr

structure AssembledContext where
  text : List Char
  tokenEstimate : Nat
  compression : CompressionKind
  compressionRatio : ℚ
  prevWaveDelta : Bool
  qualityClamped : Bool
  deriving DecidableEq

/-- `ContextAssemblerInput`; `stable_cache` is not read. -/
structure ContextAssemblerInput where
  activeCtx : List Char
  retryContext : Option (List Char)
  leaderPrefix : Option (List Char)
  grounding : Option (List Char)
  tombstone : Option (List Char)
  roleFrame : Option (List Char)
  mandate : Option (List Char)
  rejectionCriteria : Option (List Char)
  prevWaveBlob : Option AssembledContext
  budget : Option Nat
  qualityGuardRatio : Option ℚ
  /-- The answer to a section's token budget and text. -/
  compressionAdapter : Option (Nat → List Char → Option (List Char))
  globalKnowledge : Option (List Char)
  topicKnowledge : Option (List Char)
  constraintTensions : Option (List Char)
  complianceChecklist : Option (List Char)

/-! ## The two enumerations -/

/-- An optional piece of the raw text behind its label; an empty one is left out. -/
def rawPiece (label : String) (text : Option (List Char)) : List (List Char) :=
  match text with
  | some t => if t.isEmpty then [] else [label.toList ++ t]
  | none => []

def joinParagraphs (parts : List (List Char)) : List Char := List.intercalate ['\n', '\n'] parts

def rawParts (input : ContextAssemblerInput) : List (List Char) :=
  rawPiece "" input.leaderPrefix ++
    rawPiece "[STATE-OF-THE-ART]: " input.grounding ++
    rawPiece "" input.roleFrame ++
    rawPiece "[MANDATE]: " input.mandate ++
    rawPiece "[AFTER WRITING YOUR PROPOSAL, IDENTIFY THE BIGGEST RISK]: " input.rejectionCriteria ++
    [input.activeCtx] ++
    rawPiece "" input.retryContext ++
    rawPiece "" input.tombstone ++
    rawPiece "[KNOWLEDGE]:\n" input.globalKnowledge ++
    rawPiece "[DOMAIN KNOWLEDGE]:\n" input.topicKnowledge ++
    rawPiece "[CONSTRAINT TENSIONS]:\n" input.constraintTensions ++
    rawPiece "[COMPLIANCE CHECKLIST]:\n" input.complianceChecklist

/-- `assemble_raw`. -/
def assembleRaw (input : ContextAssemblerInput) : List Char := joinParagraphs (rawParts input)

/-- The section of an optional piece. -/
def pieceSection (tag : SectionTag) (importance : ℚ) (preserve : Bool)
    (text : Option (List Char)) : List Section :=
  match text with
  | some t => if t.isEmpty then [] else [⟨tag, t, importance, preserve⟩]
  | none => []

/-- `build_sections`. -/
def buildSections (input : ContextAssemblerInput) : List Section :=
  pieceSection .leaderPrefix 1 true input.leaderPrefix ++
    pieceSection .grounding 1 true input.grounding ++
    pieceSection .roleFrame (9 / 10) true input.roleFrame ++
    pieceSection .mandate (95 / 100) true input.mandate ++
    pieceSection .rejectionCriteria (9 / 10) true input.rejectionCriteria ++
    pieceSection .activeCtx (7 / 10) false (some input.activeCtx) ++
    pieceSection .retryContext (5 / 10) false input.retryContext ++
    pieceSection .tombstone 1 true input.tombstone ++
    pieceSection .globalKnowledge 1 true input.globalKnowledge ++
    pieceSection .topicKnowledge (8 / 10) false input.topicKnowledge ++
    pieceSection .constraintTension (85 / 100) false input.constraintTensions ++
    pieceSection .complianceChecklist 1 true input.complianceChecklist

/-- `sections_to_text`. -/
def sectionsToText (sections : List Section) : List Char :=
  joinParagraphs ((sections.filter fun s => !s.text.isEmpty).map (·.text))

/-! ## Token estimate -/

def codeLine (line : List Char) : Bool :=
  (trimStart line).head?.any fun c => c == '-' || c == '\x7b' || c == '[' || c == '#'

/-- `estimate_tokens`. -/
def estimateTokens (text : List Char) : Nat :=
  if text.isEmpty then 0
  else
    let codeLines := (lines text).countP codeLine
    let totalLines := max (lines text).length 1
    let codeRatio : ℚ := codeLines / totalLines
    let charsPerToken : ℚ := 3 / 2 * (1 - codeRatio) + 3
    ⌈(text.length : ℚ) / charsPerToken⌉₊

def totalTokens (sections : List Section) : Nat := (sections.map fun s => estimateTokens s.text).sum

/-! ## Scores and rules -/

/-- The regular expression `C-\d{3}` has a match. -/
def hasConstraintId (isDecimalDigit : Char → Bool) : List Char → Bool
  | 'C' :: '-' :: a :: b :: c :: rest =>
      (isDecimalDigit a && isDecimalDigit b && isDecimalDigit c) ||
        hasConstraintId isDecimalDigit ('-' :: a :: b :: c :: rest)
  | _ :: rest => hasConstraintId isDecimalDigit rest
  | [] => false

/-- What `score_sections` makes of one section. -/
def scoreSection (isDecimalDigit : Char → Bool) (prevWaveText : Option (List Char))
    (s : Section) : Section :=
  if s.preserve then s
  else
    let adjusted :=
      if hasConstraintId isDecimalDigit s.text then min (s.importance + 15 / 100) 1
      else s.importance
    match prevWaveText with
    | some prev =>
        if containsText prev s.text then { s with importance := max (s.importance - 3 / 10) 0 }
        else { s with importance := adjusted }
    | none => { s with importance := adjusted }

def omittedMarker (wave : Nat) : List Char :=
  ("[WAVE " ++ toString (wave - 1) ++
    " CONTEXT — unchanged, omitted for token efficiency]").toList

/-- The section's text stands verbatim in the text of the wave before. -/
def deltaApplies (prevWaveBlob : Option AssembledContext) (s : Section) : Bool :=
  match prevWaveBlob with
  | some prev => !s.preserve && !s.text.isEmpty && containsText prev.text s.text
  | none => false

/-- What `rule_pass` makes of one section. -/
def ruleSection (prevWaveBlob : Option AssembledContext) (wave : Nat) (s : Section) : Section :=
  if s.preserve then s
  else if deltaApplies prevWaveBlob s then { s with text := omittedMarker wave }
  else { s with text := dedupBlocks s.text }

/-- `rule_pass`: the sections after it, and whether one was replaced. -/
def rulePass (prevWaveBlob : Option AssembledContext) (wave : Nat) (sections : List Section) :
    List Section × Bool :=
  (sections.map (ruleSection prevWaveBlob wave), sections.any (deltaApplies prevWaveBlob))

/-! ## Trimming by importance -/

/-- The text in front of the last character that starts at or before `keepBytes`. -/
def keepPrefix : Nat → List Char → List Char
  | keepBytes, c :: d :: rest =>
      if c.utf8Size ≤ keepBytes then c :: keepPrefix (keepBytes - c.utf8Size) (d :: rest) else []
  | _, _ => []

/-- The text up to the full stop of the last `". "`. -/
def untilLastStop : List Char → Option (List Char)
  | '.' :: ' ' :: rest =>
      match untilLastStop (' ' :: rest) with
      | some kept => some ('.' :: kept)
      | none => some ['.']
  | c :: rest => (untilLastStop rest).map (c :: ·)
  | [] => none

/-- One cut of a section's text, when it makes it shorter. -/
def trimText60 (text : List Char) : Option (List Char) :=
  let keepBytes := utf8Len text * 3 / 5
  if text.isEmpty || keepBytes == 0 then none
  else
    let searchRange := keepPrefix keepBytes text
    let trimmed := (untilLastStop searchRange).getD searchRange
    if trimmed = text then none else some trimmed

/-- The first of the sections in `order` that a cut makes shorter is cut. -/
def trimOnce (order : List Nat) (sections : List Section) : Option (List Section) :=
  order.findSome? fun i =>
    (sections[i]?).bind fun s => (trimText60 s.text).map fun t => sections.set i { s with text := t }

def trimLoop (budget : Nat) (order : List Nat) : Nat → List Section → List Section
  | 0, sections => sections
  | fuel + 1, sections =>
      if totalTokens sections ≤ budget then sections
      else
        match trimOnce order sections with
        | some trimmed => trimLoop budget order fuel trimmed
        | none => sections

/-- The sections that may be cut, the least important first. -/
def trimOrder (sections : List Section) : List Nat :=
  ((sections.zipIdx.filter fun s => !s.1.preserve).insertionSort fun a b =>
    a.1.importance ≤ b.1.importance).map (·.2)

/-- `importance_trim`; every cut leaves fewer characters. -/
def importanceTrim (sections : List Section) (budget : Nat) : List Section :=
  trimLoop budget (trimOrder sections) (sections.map fun s => s.text.length).sum sections

/-- `quality_guard`. -/
def qualityGuard (originalLen compressedLen : Nat) (threshold : ℚ) : Bool :=
  if originalLen = 0 then false
  else decide ((compressedLen : ℚ) / originalLen < threshold)

/-! ## Summarization -/

/-- One target of the summarization; a failed call leaves the trimmed text. -/
def summarize (adapter : Nat → List Char → Option (List Char)) (budget : Nat)
    (sections : List Section) (tag : SectionTag) : List Section :=
  if totalTokens sections ≤ budget then sections
  else
    let otherTokens := totalTokens (sections.filter fun s => s.tag ≠ tag)
    let sectionBudget := max (budget - otherTokens) 64
    match sections.findIdx? fun s => decide (s.tag = tag) && !s.preserve with
    | some i =>
        match (sections[i]?).bind fun s =>
          (adapter sectionBudget s.text).map fun t => sections.set i { s with text := t } with
        | some summarized => summarized
        | none => sections
    | none => sections

/-! ## Assembly -/

/-- `tokens_after / original_tokens`. -/
def tokenRatio (original after : Nat) : ℚ := if 0 < original then after / original else 1

/-- The sections of the input after the rule pass, and whether one was replaced. -/
def ruledSections (isDecimalDigit : Char → Bool) (input : ContextAssemblerInput) :
    List Section × Bool :=
  let wave := if input.prevWaveBlob.isSome then 1 else 0
  rulePass input.prevWaveBlob wave
    ((buildSections input).map (scoreSection isDecimalDigit (input.prevWaveBlob.map (·.text))))

/-- `ContextAssembler::build`. -/
def assemble (isDecimalDigit : Char → Bool) (input : ContextAssemblerInput) : AssembledContext :=
  match input.budget with
  | none =>
      let text := assembleRaw input
      ⟨text, estimateTokens text, .none, 1, false, false⟩
  | some budget =>
      let qualityThreshold := input.qualityGuardRatio.getD (4 / 10)
      let originalTokens := totalTokens (buildSections input)
      let ruled := ruledSections isDecimalDigit input
      let tokensAfterRule := totalTokens ruled.1
      if tokensAfterRule ≤ budget then
        ⟨sectionsToText ruled.1, tokensAfterRule, .ruleBased,
          tokenRatio originalTokens tokensAfterRule, ruled.2, false⟩
      else
        let trimmed := importanceTrim ruled.1 budget
        let tokensAfterTrim := totalTokens trimmed
        match if tokensAfterTrim ≤ budget then none else input.compressionAdapter with
        | none =>
            ⟨sectionsToText trimmed, tokensAfterTrim, .importanceScored,
              tokenRatio originalTokens tokensAfterTrim, ruled.2,
              qualityGuard originalTokens tokensAfterTrim qualityThreshold⟩
        | some adapter =>
            let summarized := [SectionTag.retryContext, .activeCtx].foldl
              (summarize adapter budget) trimmed
            let tokensAfterLlm := totalTokens summarized
            ⟨sectionsToText summarized, tokensAfterLlm, .llmSummarized,
              tokenRatio originalTokens tokensAfterLlm, ruled.2,
              qualityGuard originalTokens tokensAfterLlm qualityThreshold⟩

/-! ## The waves of a run -/

/-- The pieces of one explorer slot. -/
structure SlotPieces where
  leaderPrefix : Option (List Char)
  grounding : Option (List Char)
  tombstone : Option (List Char)
  roleFrame : Option (List Char)
  mandate : Option (List Char)
  rejectionCriteria : Option (List Char)
  globalKnowledge : Option (List Char)
  topicKnowledge : Option (List Char)
  constraintTensions : Option (List Char)

structure AssemblySettings where
  isDecimalDigit : Char → Bool
  contextBudgetTokens : Option Nat
  contextQualityGuardRatio : Option ℚ

/-- What a generation wave assembles its prompts from. -/
structure PromptWave where
  activeCtx : List Char
  complianceChecklist : Option (List Char)
  slots : List SlotPieces
  compressionAdapter : Option (Nat → List Char → Option (List Char))

/-- The input that generation makes for a slot; the retry feedback is in the active context. -/
def slotInput (settings : AssemblySettings) (wave : PromptWave)
    (prev : Option AssembledContext) (slot : SlotPieces) : ContextAssemblerInput :=
  { activeCtx := wave.activeCtx
    retryContext := none
    leaderPrefix := slot.leaderPrefix
    grounding := slot.grounding
    tombstone := slot.tombstone
    roleFrame := slot.roleFrame
    mandate := slot.mandate
    rejectionCriteria := slot.rejectionCriteria
    prevWaveBlob := prev
    budget := settings.contextBudgetTokens
    qualityGuardRatio := settings.contextQualityGuardRatio
    compressionAdapter := wave.compressionAdapter
    globalKnowledge := slot.globalKnowledge
    topicKnowledge := slot.topicKnowledge
    constraintTensions := slot.constraintTensions
    complianceChecklist := wave.complianceChecklist }

/-- `prev_assembled_contexts.get(idx).and_then(..)`. -/
def prevOf (prev : List (Option AssembledContext)) (idx : Nat) : Option AssembledContext :=
  (prev[idx]?).join

def slotContext (settings : AssemblySettings) (prev : List (Option AssembledContext))
    (wave : PromptWave) (slot : SlotPieces × Nat) : AssembledContext :=
  assemble settings.isDecimalDigit (slotInput settings wave (prevOf prev slot.2) slot.1)

/-- What `observe` keeps for the next wave; nothing when the wave ended before its generation. -/
def nextContexts (settings : AssemblySettings) (prev : List (Option AssembledContext)) :
    Option PromptWave → List (Option AssembledContext)
  | some wave => wave.slots.zipIdx.map fun slot => some (slotContext settings prev wave slot)
  | none => []

/-- The contexts that a run of waves leaves for the next one. -/
def runContexts (settings : AssemblySettings) (waves : List (Option PromptWave)) :
    List (Option AssembledContext) :=
  waves.foldl (nextContexts settings) []

/-! ## What the rules leave -/

/-- Empty pieces have no section. -/
theorem section_text_ne_nil {input : ContextAssemblerInput} {s : Section}
    (h : s ∈ buildSections input) : s.text ≠ [] := by
  have hpiece : ∀ tag importance preserve piece, s ∈ pieceSection tag importance preserve piece →
      s.text ≠ [] := by
    intro tag importance preserve piece hs
    unfold pieceSection at hs
    cases piece with
    | none => cases hs
    | some t =>
        dsimp only at hs
        split_ifs at hs with hempty
        · cases hs
        · rw [List.mem_singleton.mp hs]
          simpa using hempty
  unfold buildSections at h
  simp only [List.mem_append] at h
  rcases h with ((((((((((h | h) | h) | h) | h) | h) | h) | h) | h) | h) | h) | h <;>
    exact hpiece _ _ _ _ h

theorem deltaApplies_iff {prevWaveBlob : Option AssembledContext} {s : Section} :
    deltaApplies prevWaveBlob s = true ↔
      s.preserve = false ∧ s.text ≠ [] ∧ ∃ prev, prevWaveBlob = some prev ∧ s.text <:+: prev.text := by
  cases prevWaveBlob with
  | none => simp [deltaApplies]
  | some prev =>
      unfold deltaApplies
      simp only [Bool.and_eq_true, Bool.not_eq_true', containsText_iff, Option.some.injEq,
        exists_eq_left', and_assoc]
      refine and_congr_right fun _ => and_congr_left fun _ => ?_
      rw [← Bool.not_eq_true, List.isEmpty_iff]

/-- Scoring changes nothing but the importance. -/
theorem ruleSection_scoreSection_text (isDecimalDigit : Char → Bool)
    (prevWaveBlob : Option AssembledContext) (wave : Nat) (prevWaveText : Option (List Char))
    (s : Section) :
    (ruleSection prevWaveBlob wave (scoreSection isDecimalDigit prevWaveText s)).text =
      (ruleSection prevWaveBlob wave s).text := by
  have hscore : ∃ importance, scoreSection isDecimalDigit prevWaveText s =
      { s with importance := importance } := by
    unfold scoreSection
    split
    · exact ⟨s.importance, rfl⟩
    · dsimp only
      split
      · split
        · exact ⟨_, rfl⟩
        · exact ⟨_, rfl⟩
      · exact ⟨_, rfl⟩
  obtain ⟨importance, hscore⟩ := hscore
  rw [hscore]
  unfold ruleSection deltaApplies
  dsimp only
  split_ifs <;> rfl

/-- The texts after the rule pass. -/
theorem ruledSections_texts (isDecimalDigit : Char → Bool) (input : ContextAssemblerInput) :
    (ruledSections isDecimalDigit input).1.map (·.text) = (buildSections input).map fun s =>
      (ruleSection input.prevWaveBlob (if input.prevWaveBlob.isSome then 1 else 0) s).text := by
  unfold ruledSections rulePass
  dsimp only
  rw [List.map_map, List.map_map]
  exact List.map_congr_left fun s _ => ruleSection_scoreSection_text _ _ _ _ _

/-- Only the texts of the sections matter to the text and to the estimate. -/
theorem sectionsToText_eq (sections : List Section) :
    sectionsToText sections =
      joinParagraphs ((sections.map (·.text)).filter fun t => !t.isEmpty) := by
  unfold sectionsToText
  rw [List.filter_map]
  rfl

theorem totalTokens_eq (sections : List Section) :
    totalTokens sections = ((sections.map (·.text)).map estimateTokens).sum := by
  unfold totalTokens
  rw [List.map_map]
  rfl

/-- A part of a joined text. -/
theorem infix_joinParagraphs {parts : List (List Char)} {part : List Char} (h : part ∈ parts) :
    part <:+: joinParagraphs parts := by
  unfold joinParagraphs
  induction parts with
  | nil => cases h
  | cons first parts ih =>
      cases parts with
      | nil =>
          rw [List.mem_singleton.mp h]
          simp
      | cons next parts =>
          rw [List.intercalate_cons_cons]
          rcases List.mem_cons.mp h with rfl | h
          · exact ⟨[], ['\n', '\n'] ++ List.intercalate ['\n', '\n'] (next :: parts), by simp⟩
          · obtain ⟨a, b, hab⟩ := ih h
            exact ⟨first ++ ['\n', '\n'] ++ a, b, by rw [← hab]; simp⟩

end ControlPlane.Source.Engine
