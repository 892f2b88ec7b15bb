import ControlPlane.Lib.Omissions
import ControlPlane.Source.Engine.ContextAssembler
import Mathlib.Tactic.Linarith

/-!
# Block deduplication loses no line

`dedup_blocks` leaves out a block of four lines only behind an equal one, and the
normalization behind it keeps every line that has something visible. So the first
occurrences of the visible lines stay in their order, and the lines of the result are lines
of the text, blank lines and duplicate markers.
-/
namespace ControlPlane.Guarantees.BlockDeduplication

open Lib Source.Text Source.Engine

/-! ## Statement -/

/-- The lines that are not blank, without their trailing blanks. -/
def visibleLines (ls : List (List Char)) : List (List Char) :=
  (ls.map trimEnd).filter fun line => decide (line ≠ [])

/-- The same without the lines that read like a duplicate marker. -/
def unmarkedLines (ls : List (List Char)) : List (List Char) :=
  (visibleLines ls).filter fun line => decide (line ≠ duplicateMarker)

structure LosesNothing (text result : List Char) : Prop where
  kept : ∀ line ∈ lines text, trimEnd line ≠ [] → trimEnd line ∈ lines result
  ordered : (visibleLines (lines text)).eraseDups.Sublist (lines result)
  firsts : (unmarkedLines (lines result)).eraseDups = (unmarkedLines (lines text)).eraseDups
  nothingNew : ∀ line ∈ lines result,
    line = [] ∨ line = duplicateMarker ∨ ∃ l ∈ lines text, line = trimEnd l

/-! ## Normalized lines -/

/-- The lines that `normalize_whitespace` writes, behind `blankCount` blank lines. -/
def normalizedLines : Nat → List (List Char) → List (List Char)
  | _, [] => []
  | blankCount, line :: rest =>
      if trimEnd line = [] then
        (if blankCount = 0 then [[]] else []) ++ normalizedLines (blankCount + 1) rest
      else trimEnd line :: normalizedLines 0 rest

theorem normalizeLoop_eq (blankCount : Nat) (ls : List (List Char)) :
    normalizeLoop blankCount ls = terminated (normalizedLines blankCount ls) := by
  induction ls generalizing blankCount with
  | nil => rfl
  | cons line rest ih =>
      rw [normalizeLoop, normalizedLines]
      by_cases hblank : trimEnd line = []
      · rw [if_pos (trim_isEmpty_iff.mpr hblank), if_pos hblank, ih]
        by_cases hzero : blankCount = 0
        · rw [if_pos (by omega), if_pos hzero]
          rfl
        · rw [if_neg (by omega), if_neg hzero]
          rfl
      · rw [if_neg fun h => hblank (trim_isEmpty_iff.mp h), if_neg hblank, ih]
        simp [terminated]

theorem visibleLines_cons_of_blank {line : List Char} (h : trimEnd line = [])
    (ls : List (List Char)) : visibleLines (line :: ls) = visibleLines ls := by
  simp [visibleLines, h]

theorem visibleLines_cons_of_visible {line : List Char} (h : trimEnd line ≠ [])
    (ls : List (List Char)) : visibleLines (line :: ls) = trimEnd line :: visibleLines ls := by
  simp [visibleLines, h]

theorem visibleLines_normalizedLines (blankCount : Nat) (ls : List (List Char)) :
    visibleLines (normalizedLines blankCount ls) = visibleLines ls := by
  induction ls generalizing blankCount with
  | nil => rfl
  | cons line rest ih =>
      rw [normalizedLines]
      by_cases hblank : trimEnd line = []
      · rw [if_pos hblank, visibleLines_cons_of_blank hblank, ← ih (blankCount + 1)]
        split
        · rw [List.singleton_append]
          exact visibleLines_cons_of_blank rfl _
        · rfl
      · have hagain : trimEnd (trimEnd line) ≠ [] := by rwa [trimEnd_trimEnd]
        rw [if_neg hblank, visibleLines_cons_of_visible hblank,
          visibleLines_cons_of_visible hagain, trimEnd_trimEnd, ih]

theorem mem_normalizedLines {blankCount : Nat} {ls : List (List Char)} {line : List Char}
    (h : line ∈ normalizedLines blankCount ls) :
    line = [] ∨ line ∈ visibleLines ls := by
  by_cases hblank : line = []
  · exact Or.inl hblank
  · right
    induction ls generalizing blankCount with
    | nil => cases h
    | cons first rest ih =>
        rw [normalizedLines] at h
        split at h
        · next hfirst =>
          rw [visibleLines_cons_of_blank hfirst]
          rcases List.mem_append.mp h with hhead | hrest
          · split at hhead
            · exact absurd (List.mem_singleton.mp hhead) hblank
            · cases hhead
          · exact ih hrest
        · next hfirst =>
          rw [visibleLines_cons_of_visible hfirst]
          rcases List.mem_cons.mp h with rfl | hrest
          · exact List.mem_cons_self ..
          · exact List.mem_cons_of_mem _ (ih hrest)

/-! ## Lines of joined lines -/

theorem trimEnd_of_mem_visibleLines {ls : List (List Char)} {line : List Char}
    (h : line ∈ visibleLines ls) : trimEnd line = line ∧ line ≠ [] := by
  obtain ⟨hmap, hvisible⟩ := List.mem_filter.mp h
  obtain ⟨l, _, rfl⟩ := List.mem_map.mp hmap
  exact ⟨trimEnd_trimEnd l, by simpa using hvisible⟩

theorem lines_joinLines {ls : List (List Char)} (nonempty : ls ≠ [])
    (unbroken : ∀ line ∈ ls, '\n' ∉ line) :
    lines (joinLines ls) =
      ls.dropLast.map stripCarriageReturn ++
        if (ls.getLast nonempty).isEmpty then [] else [ls.getLast nonempty] := by
  have hparts : (joinLines ls).splitOn '\n' = ls :=
    List.splitOn_intercalate '\n' unbroken nonempty
  unfold lines
  dsimp only
  rw [hparts, List.getLast?_eq_some_getLast nonempty]
  rfl

/-- Reading joined lines again changes nothing but carriage returns and a blank line at the
end. -/
theorem visibleLines_joinLines {ls : List (List Char)} (unbroken : ∀ line ∈ ls, '\n' ∉ line) :
    visibleLines (lines (joinLines ls)) = visibleLines ls := by
  by_cases hnil : ls = []
  · rw [hnil]
    rfl
  have hsplit := List.dropLast_append_getLast hnil
  have hfront : visibleLines (ls.dropLast.map stripCarriageReturn) = visibleLines ls.dropLast := by
    unfold visibleLines
    rw [List.map_map]
    congr 1
    exact List.map_congr_left fun line _ => trimEnd_stripCarriageReturn line
  have happend : ∀ front back, visibleLines (front ++ back) =
      visibleLines front ++ visibleLines back := by
    intro front back
    simp [visibleLines]
  rw [lines_joinLines hnil unbroken, happend, hfront]
  conv_rhs => rw [← hsplit, happend]
  split
  · next hempty =>
    rw [List.isEmpty_iff.mp hempty]
    rfl
  · rfl

/-- A trim of the end takes the blank lines at the end away and leaves the others. -/
theorem exists_blank_end {ls : List (List Char)} (trimmed : ∀ line ∈ ls, trimEnd line = line)
    (unbroken : ∀ line ∈ ls, '\n' ∉ line) :
    ∃ blanks, (∀ line ∈ blanks, line = []) ∧ ls = lines (trimEnd (terminated ls)) ++ blanks := by
  induction ls using List.reverseRecOn with
  | nil => exact ⟨[], by simp, rfl⟩
  | append_singleton init last ih =>
      have hterminated : terminated (init ++ [last]) = terminated init ++ last ++ ['\n'] := by
        simp [terminated]
      have htrim : trimEnd (terminated (init ++ [last])) = trimEnd (terminated init ++ last) := by
        rw [hterminated, trimEnd_append, if_pos (by decide)]
      by_cases hlast : last = []
      · obtain ⟨blanks, hblanks, hsplit⟩ := ih
          (fun line hline => trimmed line (List.mem_append_left _ hline))
          (fun line hline => unbroken line (List.mem_append_left _ hline))
        refine ⟨blanks ++ [last], ?_, ?_⟩
        · intro line hline
          rcases List.mem_append.mp hline with hline | hline
          · exact hblanks line hline
          · rw [List.mem_singleton.mp hline, hlast]
        · rw [htrim, hlast, List.append_nil, ← List.append_assoc, ← hsplit]
      · have hnonempty : init ++ [last] ≠ [] := by simp
        have hlastTrimmed := trimmed last (by simp)
        have hjoined : trimEnd (terminated (init ++ [last])) = joinLines (init ++ [last]) := by
          have hjoin := joinLines_terminated hnonempty
          rw [hterminated] at hjoin
          rw [htrim, List.append_cancel_right hjoin, trimEnd_append,
            if_neg (by rwa [hlastTrimmed]), hlastTrimmed]
        have hstrip : ∀ line ∈ init, stripCarriageReturn line = id line := fun line hline =>
          stripCarriageReturn_trimmed (trimmed line (List.mem_append_left _ hline))
        refine ⟨[], by simp, ?_⟩
        rw [hjoined, lines_joinLines hnonempty unbroken, List.dropLast_concat,
          List.getLast_append_singleton, if_neg (by simpa using hlast),
          List.map_congr_left hstrip, List.map_id, List.append_nil]

theorem lines_normalizeWhitespace (text : List Char) :
    ∃ blanks, (∀ line ∈ blanks, line = []) ∧
      normalizedLines 0 (lines text) = lines (normalizeWhitespace text) ++ blanks := by
  rw [normalizeWhitespace, normalizeLoop_eq]
  apply exists_blank_end
  · intro line hline
    rcases mem_normalizedLines hline with rfl | hvisible
    · rfl
    · exact (trimEnd_of_mem_visibleLines hvisible).1
  · intro line hline
    rcases mem_normalizedLines hline with rfl | hvisible
    · simp
    · obtain ⟨l, hl, rfl⟩ := List.mem_map.mp (List.mem_filter.mp hvisible).1
      exact fun hmem => not_mem_lines hl ((trimEnd_begins l).subset hmem)

theorem visibleLines_normalizeWhitespace (text : List Char) :
    visibleLines (lines (normalizeWhitespace text)) = visibleLines (lines text) := by
  obtain ⟨blanks, hblanks, hsplit⟩ := lines_normalizeWhitespace text
  have hnone : visibleLines blanks = [] := by
    unfold visibleLines
    rw [List.filter_eq_nil_iff]
    intro line hline
    obtain ⟨l, hl, rfl⟩ := List.mem_map.mp hline
    simp [hblanks l hl, trimEnd]
  rw [← visibleLines_normalizedLines 0 (lines text), hsplit]
  unfold visibleLines at hnone ⊢
  rw [List.map_append, List.filter_append, hnone, List.append_nil]

/-! ## Blocks left out -/

theorem dedupLoop_omits {seen : List (List (List Char))} {kept ls : List (List Char)}
    (hseen : ∀ block ∈ seen, ∀ line ∈ block, line ∈ kept) :
    Omits duplicateMarker kept ls (dedupLoop seen ls) := by
  fun_induction dedupLoop seen ls generalizing kept with
  | case1 seen a b c d rest hmem ih =>
      exact .note (Omits.leave_append (hseen _ hmem) (ih hseen))
  | case2 seen a b c d rest hnew ih =>
      refine Omits.keep_append [a, b, c, d] (ih ?_)
      intro block hblock line hline
      rcases List.mem_cons.mp hblock with rfl | hblock
      · exact List.mem_append_left _ (List.mem_reverse.mpr hline)
      · exact List.mem_append_right _ (hseen block hblock line hline)
  | case3 seen rest hshort => exact Omits.keep_all duplicateMarker kept rest

theorem dedupBlocks_omits (text : List Char) :
    Omits duplicateMarker [] (visibleLines (lines text))
      (visibleLines (lines (dedupBlocks text))) := by
  unfold dedupBlocks
  split
  · rw [visibleLines_normalizeWhitespace]
    exact Omits.keep_all duplicateMarker [] _
  · have hunbroken : ∀ line ∈ dedupLoop [] (lines text), '\n' ∉ line :=
      not_mem_dedupLoop (fun _ hline => not_mem_lines hline) []
    rw [visibleLines_normalizeWhitespace, visibleLines_joinLines hunbroken]
    have homits : Omits duplicateMarker [] (lines text) (dedupLoop [] (lines text)) :=
      dedupLoop_omits (by simp)
    exact (homits.map trimEnd).filter fun line => decide (line ≠ [])

/-! ## The guarantee -/

theorem mem_visibleLines {ls : List (List Char)} {line : List Char} (h : line ∈ ls)
    (hvisible : trimEnd line ≠ []) : trimEnd line ∈ visibleLines ls :=
  List.mem_filter.mpr ⟨List.mem_map_of_mem h, by simpa using hvisible⟩

theorem mem_lines_dedupBlocks {text line : List Char} (h : line ∈ lines (dedupBlocks text)) :
    line = [] ∨ line ∈ visibleLines (lines (dedupBlocks text)) := by
  have hnormalized : ∃ text', dedupBlocks text = normalizeWhitespace text' := by
    unfold dedupBlocks
    split
    · exact ⟨text, rfl⟩
    · exact ⟨_, rfl⟩
  obtain ⟨text', heq⟩ := hnormalized
  obtain ⟨blanks, _, hsplit⟩ := lines_normalizeWhitespace text'
  rw [heq] at h ⊢
  rw [visibleLines_normalizeWhitespace]
  exact mem_normalizedLines (hsplit ▸ List.mem_append_left blanks h)

theorem visibleLines_sublist (text : List Char) :
    (visibleLines (lines (dedupBlocks text))).Sublist (lines (dedupBlocks text)) := by
  have htrimmed : ∀ line ∈ lines (dedupBlocks text), trimEnd line = id line := by
    intro line hline
    rcases mem_lines_dedupBlocks hline with rfl | hvisible
    · rfl
    · exact (trimEnd_of_mem_visibleLines hvisible).1
  unfold visibleLines
  rw [List.map_congr_left htrimmed, List.map_id]
  exact List.filter_sublist

theorem dedupBlocks_losesNothing (text : List Char) : LosesNothing text (dedupBlocks text) := by
  have homits := dedupBlocks_omits text
  have hfirsts := homits.firsts_sublist
  rw [Omits.firsts_nil] at hfirsts
  have hordered := hfirsts.trans (visibleLines_sublist text)
  constructor
  case kept =>
    intro line hline hvisible
    exact hordered.subset (List.mem_eraseDups.mpr (mem_visibleLines hline hvisible))
  case ordered => exact hordered
  case firsts =>
    have hunmarked := (homits.filter fun line => decide (line ≠ duplicateMarker)).firsts_eq
      (by simp)
    rw [List.filter_nil, Omits.firsts_nil, Omits.firsts_nil] at hunmarked
    exact hunmarked
  case nothingNew =>
    intro line hline
    rcases mem_lines_dedupBlocks hline with hblank | hvisible
    · exact Or.inl hblank
    · right
      rcases homits.mem line hvisible with hmark | hkept
      · exact Or.inl hmark
      · obtain ⟨l, hl, rfl⟩ := List.mem_map.mp (List.mem_filter.mp hkept).1
        exact Or.inr ⟨l, hl, rfl⟩

/-- A section that `rule_pass` neither preserves nor replaces loses nothing. -/
theorem ruleSection_losesNothing {prevWaveBlob : Option AssembledContext} {s : Section}
    (wave : Nat) (preserved : s.preserve = false) (changed : deltaApplies prevWaveBlob s = false) :
    LosesNothing s.text (ruleSection prevWaveBlob wave s).text := by
  have htext : (ruleSection prevWaveBlob wave s).text = dedupBlocks s.text := by
    simp [ruleSection, preserved, changed]
  rw [htext]
  exact dedupBlocks_losesNothing s.text

end ControlPlane.Guarantees.BlockDeduplication

/-!
# Assembly with and without a budget

The raw text and the sections enumerate the same pieces in the same order. The raw text
puts labels in front of seven of them and has a paragraph for an empty active context;
the sections have neither, so the texts agree exactly if no such piece is there.
-/
namespace ControlPlane.Guarantees.AssemblyAgreement

open Source Source.Text Source.Engine

/-- The pieces that get a label in the raw text. -/
def labelledPieces (input : ContextAssemblerInput) : List (Option (List Char)) :=
  [input.grounding, input.mandate, input.rejectionCriteria, input.globalKnowledge,
    input.topicKnowledge, input.constraintTensions, input.complianceChecklist]

/-- The pieces that go into both texts as they are. -/
def plainPieces (input : ContextAssemblerInput) : List (Option (List Char)) :=
  [input.leaderPrefix, input.roleFrame, input.retryContext, input.tombstone]

def Absent (piece : Option (List Char)) : Prop := ∀ t, piece = some t → t = []

/-- No labelled piece is there, and the active context is not the only thing missing. -/
structure Unlabelled (input : ContextAssemblerInput) : Prop where
  labels : ∀ piece ∈ labelledPieces input, Absent piece
  active : input.activeCtx ≠ [] ∨ ∀ piece ∈ plainPieces input, Absent piece

/-! ## The paragraphs of a piece -/

/-- The characters of the paragraphs, with a separator for each. -/
def weight (parts : List (List Char)) : Nat := (parts.map fun t => t.length + 2).sum

theorem weight_append (a b : List (List Char)) : weight (a ++ b) = weight a + weight b := by
  unfold weight
  rw [List.map_append, List.sum_append]

theorem joinParagraphs_length {parts : List (List Char)} (h : parts ≠ []) :
    (joinParagraphs parts).length + 2 = weight parts := by
  induction parts with
  | nil => exact absurd rfl h
  | cons first parts ih =>
      cases parts with
      | nil => simp [joinParagraphs, weight]
      | cons next parts =>
          have hrest := ih (List.cons_ne_nil _ _)
          unfold joinParagraphs weight at hrest ⊢
          rw [List.intercalate_cons_cons, List.map_cons, List.sum_cons, ← hrest]
          simp only [List.length_append, List.length_cons, List.length_nil]
          omega

/-- The paragraphs of a piece in the sections' text. -/
def pieceTexts (piece : Option (List Char)) : List (List Char) := rawPiece "" piece

theorem pieceSection_texts (tag : SectionTag) (importance : ℚ) (preserve : Bool)
    (piece : Option (List Char)) :
    (pieceSection tag importance preserve piece).map (·.text) = pieceTexts piece := by
  unfold pieceSection pieceTexts rawPiece
  cases piece with
  | none => rfl
  | some t =>
      dsimp only
      split_ifs <;> simp

theorem weight_rawPiece (label : String) (piece : Option (List Char)) :
    weight (rawPiece label piece) =
      weight (pieceTexts piece) + (rawPiece label piece).length * label.length := by
  unfold pieceTexts rawPiece
  cases piece with
  | none => simp [weight]
  | some t =>
      dsimp only
      split_ifs
      · simp [weight]
      · simp only [weight, List.map_cons, List.map_nil, List.sum_cons, List.sum_nil,
          List.length_append, String.length_toList, List.length_singleton]
        simp
        omega

theorem rawPiece_eq_nil {label : String} {piece : Option (List Char)} :
    rawPiece label piece = [] ↔ Absent piece := by
  unfold rawPiece Absent
  cases piece with
  | none => simp
  | some t =>
      dsimp only
      split_ifs with h
      · simpa using h
      · simpa using h

theorem length_rawPiece_zero {label : String} {piece : Option (List Char)} :
    (rawPiece label piece).length = 0 ↔ Absent piece := by
  rw [List.length_eq_zero_iff, rawPiece_eq_nil]

/-! ## The two texts -/

variable {input : ContextAssemblerInput}

theorem sections_texts (input : ContextAssemblerInput) :
    (buildSections input).map (·.text) =
      pieceTexts input.leaderPrefix ++ pieceTexts input.grounding ++ pieceTexts input.roleFrame ++
        pieceTexts input.mandate ++ pieceTexts input.rejectionCriteria ++
        pieceTexts (some input.activeCtx) ++ pieceTexts input.retryContext ++
        pieceTexts input.tombstone ++ pieceTexts input.globalKnowledge ++
        pieceTexts input.topicKnowledge ++ pieceTexts input.constraintTensions ++
        pieceTexts input.complianceChecklist := by
  unfold buildSections
  simp only [List.map_append, pieceSection_texts]

/-- Tidy sections that fit the budget come out of the assembly as they are. -/
theorem assemble_tidy (isDecimalDigit : Char → Bool) (input : ContextAssemblerInput) {budget : Nat}
    (first : input.prevWaveBlob = none) (given : input.budget = some budget)
    (fits : totalTokens (buildSections input) ≤ budget)
    (tidy : ∀ s ∈ buildSections input, Tidy s.text) :
    (assemble isDecimalDigit input).text =
      joinParagraphs ((buildSections input).map (·.text)) := by
  have htexts : (ruledSections isDecimalDigit input).1.map (·.text) =
      (buildSections input).map (·.text) := by
    rw [ruledSections_texts, first]
    refine List.map_congr_left fun s hs => ?_
    unfold ruleSection deltaApplies
    rw [if_neg Bool.false_ne_true]
    split_ifs
    · rfl
    · exact (tidy s hs).dedupBlocks_eq (section_text_ne_nil hs)
  have hfits : totalTokens (ruledSections isDecimalDigit input).1 ≤ budget := by
    rw [totalTokens_eq, htexts, ← totalTokens_eq]
    exact fits
  have hkept : ((buildSections input).map (·.text)).filter (fun t => !t.isEmpty) =
      (buildSections input).map (·.text) := by
    refine List.filter_eq_self.mpr fun t ht => ?_
    obtain ⟨s, hs, rfl⟩ := List.mem_map.mp ht
    simpa using section_text_ne_nil hs
  unfold assemble
  rw [given]
  dsimp only
  rw [if_pos hfits]
  dsimp only
  rw [sectionsToText_eq, htexts, hkept]

theorem assemble_raw (isDecimalDigit : Char → Bool) (input : ContextAssemblerInput) :
    (assemble isDecimalDigit { input with budget := none }).text = assembleRaw input := rfl

/-- The characters that the raw text has more. -/
def labelWeight (input : ContextAssemblerInput) : Nat :=
  (rawPiece "[STATE-OF-THE-ART]: " input.grounding).length * 20 +
    (rawPiece "[MANDATE]: " input.mandate).length * 11 +
    (rawPiece "[AFTER WRITING YOUR PROPOSAL, IDENTIFY THE BIGGEST RISK]: "
      input.rejectionCriteria).length * 58 +
    (rawPiece "[KNOWLEDGE]:\n" input.globalKnowledge).length * 13 +
    (rawPiece "[DOMAIN KNOWLEDGE]:\n" input.topicKnowledge).length * 20 +
    (rawPiece "[CONSTRAINT TENSIONS]:\n" input.constraintTensions).length * 23 +
    (rawPiece "[COMPLIANCE CHECKLIST]:\n" input.complianceChecklist).length * 24 +
    if input.activeCtx = [] then 2 else 0

theorem weight_active (active : List Char) :
    weight [active] = weight (pieceTexts (some active)) + if active = [] then 2 else 0 := by
  unfold pieceTexts rawPiece
  dsimp only
  by_cases h : active = []
  · simp [h, weight]
  · simp [h, weight]

theorem weight_rawParts (input : ContextAssemblerInput) :
    weight (rawParts input) =
      weight ((buildSections input).map (·.text)) + labelWeight input := by
  rw [sections_texts]
  unfold rawParts labelWeight
  simp only [weight_append, weight_rawPiece "[STATE-OF-THE-ART]: ", weight_rawPiece "[MANDATE]: ",
    weight_rawPiece "[AFTER WRITING YOUR PROPOSAL, IDENTIFY THE BIGGEST RISK]: ",
    weight_rawPiece "[KNOWLEDGE]:\n", weight_rawPiece "[DOMAIN KNOWLEDGE]:\n",
    weight_rawPiece "[CONSTRAINT TENSIONS]:\n", weight_rawPiece "[COMPLIANCE CHECKLIST]:\n",
    weight_active, show "[STATE-OF-THE-ART]: ".length = 20 from by decide,
    show "[MANDATE]: ".length = 11 from by decide,
    show "[AFTER WRITING YOUR PROPOSAL, IDENTIFY THE BIGGEST RISK]: ".length = 58 from by decide,
    show "[KNOWLEDGE]:\n".length = 13 from by decide,
    show "[DOMAIN KNOWLEDGE]:\n".length = 20 from by decide,
    show "[CONSTRAINT TENSIONS]:\n".length = 23 from by decide,
    show "[COMPLIANCE CHECKLIST]:\n".length = 24 from by decide]
  unfold pieceTexts
  omega

/-- There is no label in the way exactly if the raw text has nothing more. -/
theorem labelWeight_eq_zero : labelWeight input = 0 ↔
    (∀ piece ∈ labelledPieces input, Absent piece) ∧ input.activeCtx ≠ [] := by
  have hactive : (if input.activeCtx = [] then 2 else 0) = 0 ↔ input.activeCtx ≠ [] := by
    split_ifs with h
    · simp [h]
    · simp [h]
  unfold labelWeight labelledPieces
  rw [Nat.add_eq_zero_iff, hactive]
  refine and_congr_left fun _ => ?_
  simp only [Nat.add_eq_zero_iff, Nat.mul_eq_zero, length_rawPiece_zero, List.forall_mem_cons,
    List.not_mem_nil, false_implies, implies_true, and_true, OfNat.ofNat_ne_zero, or_false,
    and_assoc]

theorem sections_eq_nil :
    (buildSections input).map (·.text) = [] ↔ input.activeCtx = [] ∧
      (∀ piece ∈ labelledPieces input, Absent piece) ∧
      ∀ piece ∈ plainPieces input, Absent piece := by
  rw [sections_texts]
  unfold labelledPieces plainPieces pieceTexts
  simp only [List.append_eq_nil_iff, rawPiece_eq_nil, List.forall_mem_cons, List.not_mem_nil,
    false_implies, implies_true, and_true]
  have hactive : Absent (some input.activeCtx) ↔ input.activeCtx = [] := by
    unfold Absent
    simp
  rw [hactive]
  tauto

theorem forall_labelledPieces {P : Option (List Char) → Prop}
    (h : ∀ piece ∈ labelledPieces input, P piece) :
    P input.grounding ∧ P input.mandate ∧ P input.rejectionCriteria ∧ P input.globalKnowledge ∧
      P input.topicKnowledge ∧ P input.constraintTensions ∧ P input.complianceChecklist := by
  unfold labelledPieces at h
  simpa only [List.forall_mem_cons, List.not_mem_nil, false_implies, implies_true, and_true] using h

theorem labelWeight_of_absent (labels : ∀ piece ∈ labelledPieces input, Absent piece) :
    labelWeight input = if input.activeCtx = [] then 2 else 0 := by
  obtain ⟨h1, h2, h3, h4, h5, h6, h7⟩ := forall_labelledPieces labels
  unfold labelWeight
  rw [length_rawPiece_zero.mpr h1, length_rawPiece_zero.mpr h2, length_rawPiece_zero.mpr h3,
    length_rawPiece_zero.mpr h4, length_rawPiece_zero.mpr h5, length_rawPiece_zero.mpr h6,
    length_rawPiece_zero.mpr h7]
  simp only [Nat.zero_mul, Nat.zero_add]

theorem rawParts_ne_nil (input : ContextAssemblerInput) : rawParts input ≠ [] := by
  unfold rawParts
  simp

theorem rawPiece_of_absent {label : String} {piece : Option (List Char)} (h : Absent piece) :
    rawPiece label piece = pieceTexts piece :=
  (rawPiece_eq_nil.mpr h).trans (rawPiece_eq_nil.mpr h).symm

/-- Without any piece the one paragraph of the raw text is empty. -/
theorem assembleRaw_of_nil (h : (buildSections input).map (·.text) = []) :
    assembleRaw input = [] := by
  obtain ⟨hactive, hlabels, -⟩ := sections_eq_nil.mp h
  have hweight := weight_rawParts input
  have hlength := joinParagraphs_length (rawParts_ne_nil input)
  rw [h, labelWeight_of_absent hlabels, if_pos hactive] at hweight
  rw [hweight] at hlength
  unfold assembleRaw
  apply List.eq_nil_of_length_eq_zero
  simpa [weight] using hlength

/-- Texts of one length leave no room for a label. -/
theorem unlabelled_of_raw_eq (some_text : (buildSections input).map (·.text) ≠ [])
    (heq : joinParagraphs ((buildSections input).map (·.text)) = assembleRaw input) :
    Unlabelled input := by
  have hweight := weight_rawParts input
  have hlength := congrArg List.length heq
  have hraw := joinParagraphs_length (rawParts_ne_nil input)
  have hsections := joinParagraphs_length some_text
  unfold assembleRaw at hlength
  obtain ⟨hlabels, hactive⟩ := labelWeight_eq_zero.mp (show labelWeight input = 0 by omega)
  exact ⟨hlabels, Or.inl hactive⟩

theorem raw_eq_of_unlabelled (active : input.activeCtx ≠ [])
    (labels : ∀ piece ∈ labelledPieces input, Absent piece) :
    joinParagraphs ((buildSections input).map (·.text)) = assembleRaw input := by
  obtain ⟨h1, h2, h3, h4, h5, h6, h7⟩ := forall_labelledPieces labels
  have hparagraph : [input.activeCtx] = pieceTexts (some input.activeCtx) := by
    unfold pieceTexts rawPiece
    simp [active]
  unfold assembleRaw rawParts
  rw [sections_texts, rawPiece_of_absent h1, rawPiece_of_absent h2, rawPiece_of_absent h3,
    rawPiece_of_absent h4, rawPiece_of_absent h5, rawPiece_of_absent h6, rawPiece_of_absent h7,
    hparagraph]
  rfl

/-- The raw text is the text of the sections exactly if nothing is labelled. -/
theorem raw_eq_sections_iff :
    joinParagraphs ((buildSections input).map (·.text)) = assembleRaw input ↔
      Unlabelled input := by
  by_cases hnil : (buildSections input).map (·.text) = []
  · obtain ⟨-, hlabels, hplain⟩ := sections_eq_nil.mp hnil
    refine iff_of_true ?_ ⟨hlabels, Or.inr hplain⟩
    rw [hnil, assembleRaw_of_nil hnil]
    rfl
  · refine ⟨unlabelled_of_raw_eq hnil, fun h => ?_⟩
    have hactive : input.activeCtx ≠ [] := by
      rcases h.active with hactive | hplain
      · exact hactive
      · intro hempty
        exact hnil (sections_eq_nil.mpr ⟨hempty, h.labels, hplain⟩)
    exact raw_eq_of_unlabelled hactive h.labels

/-- Compression changes nothing in a prompt that fits, exactly if nothing in it is labelled. -/
theorem assembly_agrees_iff (isDecimalDigit : Char → Bool) {input : ContextAssemblerInput}
    {budget : Nat} (first : input.prevWaveBlob = none)
    (fits : totalTokens (buildSections input) ≤ budget)
    (tidy : ∀ s ∈ buildSections input, Tidy s.text) :
    (assemble isDecimalDigit { input with budget := some budget }).text =
        (assemble isDecimalDigit { input with budget := none }).text ↔ Unlabelled input := by
  rw [assemble_raw, ← raw_eq_sections_iff,
    assemble_tidy isDecimalDigit { input with budget := some budget } first rfl fits tidy]
  rfl

/-! ## A prompt of two pieces -/

def jwtInput (roleFrame mandate : String) : ContextAssemblerInput :=
  { activeCtx := "Use JWT.\n\nRotate the keys.".toList
    retryContext := none
    leaderPrefix := none
    grounding := none
    tombstone := none
    roleFrame := some roleFrame.toList
    mandate := some mandate.toList
    rejectionCriteria := none
    prevWaveBlob := none
    budget := none
    qualityGuardRatio := none
    compressionAdapter := none
    globalKnowledge := none
    topicKnowledge := none
    constraintTensions := none
    complianceChecklist := none }

theorem roleFrame_agrees :
    (assemble Char.isDigit { jwtInput "You review." "" with budget := some 100 }).text =
      (assemble Char.isDigit { jwtInput "You review." "" with budget := none }).text := by
  refine (assembly_agrees_iff Char.isDigit rfl (by decide +kernel) (by decide +kernel)).mpr ⟨?_, ?_⟩
  · unfold labelledPieces Absent
    decide +kernel
  · exact Or.inl (by decide +kernel)

/-- The mandate loses its label. -/
theorem mandate_loses_label :
    totalTokens (buildSections (jwtInput "" "Cite RFC 7519.")) ≤ 100 ∧
      (∀ s ∈ buildSections (jwtInput "" "Cite RFC 7519."), Tidy s.text) ∧
      (assemble Char.isDigit { jwtInput "" "Cite RFC 7519." with budget := some 100 }).text ≠
        (assemble Char.isDigit { jwtInput "" "Cite RFC 7519." with budget := none }).text := by
  decide +kernel

end ControlPlane.Guarantees.AssemblyAgreement
