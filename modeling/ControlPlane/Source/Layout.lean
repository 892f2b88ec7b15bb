import ControlPlane.Source.Text
import Mathlib.Data.List.Chain
import Mathlib.Data.List.Nodup
import Mathlib.Data.List.DropRight
import Mathlib.Data.List.Infix
import Mathlib.Data.List.TakeWhile

/-!
# The layout of a text

Embeds `str::lines` and the two clean-up functions of the context assembler
(`crates/h2ai-orchestrator/src/context_assembler.rs`): `normalize_whitespace` and
`dedup_blocks`. Texts are lists of characters.
-/
namespace ControlPlane.Source.Text

def stripCarriageReturn (line : List Char) : List Char :=
  if line.getLast? = some '\r' then line.dropLast else line

/-- `str::lines`: a line ends with `\n` or `\r\n`; what stands behind the last line break is
a line if it is not empty. -/
def lines (text : List Char) : List (List Char) :=
  let parts := text.splitOn '\n'
  let rest := parts.getLast?.getD []
  parts.dropLast.map stripCarriageReturn ++ if rest.isEmpty then [] else [rest]

def joinLines (ls : List (List Char)) : List Char := List.intercalate ['\n'] ls

/-- The loop of `normalize_whitespace`, behind `blankCount` blank lines. -/
def normalizeLoop : Nat → List (List Char) → List Char
  | _, [] => []
  | blankCount, line :: rest =>
      if (trim line).isEmpty then
        (if blankCount + 1 ≤ 1 then ['\n'] else []) ++ normalizeLoop (blankCount + 1) rest
      else trimEnd line ++ '\n' :: normalizeLoop 0 rest

/-- `normalize_whitespace`. -/
def normalizeWhitespace (text : List Char) : List Char := trimEnd (normalizeLoop 0 (lines text))

def duplicateMarker : List Char := "[duplicate block omitted]".toList

/-- The loop of `dedup_blocks`, four lines at a time. Lines have no line break, so blocks
are compared line by line. -/
def dedupLoop : List (List (List Char)) → List (List Char) → List (List Char)
  | seen, a :: b :: c :: d :: rest =>
      if [a, b, c, d] ∈ seen then duplicateMarker :: dedupLoop seen rest
      else a :: b :: c :: d :: dedupLoop ([a, b, c, d] :: seen) rest
  | _, rest => rest

/-- `dedup_blocks`. -/
def dedupBlocks (text : List Char) : List Char :=
  if (lines text).length < 8 then normalizeWhitespace text
  else normalizeWhitespace (joinLines (dedupLoop [] (lines text)))

/-- The blocks that `dedup_blocks` looks at. -/
def fourLineBlocks : List (List Char) → List (List (List Char))
  | a :: b :: c :: d :: rest => [a, b, c, d] :: fourLineBlocks rest
  | _ => []

/-- No blank-line runs, no trailing blanks, no repeated four-line blocks. -/
structure Tidy (text : List Char) : Prop where
  trimmed : ∀ line ∈ text.splitOn '\n', trimEnd line = line
  spaced : (text.splitOn '\n').IsChain fun a b => a ≠ [] ∨ b ≠ []
  ended : trimEnd text = text
  distinct : (fourLineBlocks (text.splitOn '\n')).Nodup

instance (text : List Char) : Decidable (Tidy text) :=
  decidable_of_iff ((∀ line ∈ text.splitOn '\n', trimEnd line = line) ∧
      (text.splitOn '\n').IsChain (fun a b => a ≠ [] ∨ b ≠ []) ∧ trimEnd text = text ∧
      (fourLineBlocks (text.splitOn '\n')).Nodup)
    ⟨fun h => ⟨h.1, h.2.1, h.2.2.1, h.2.2.2⟩,
      fun h => ⟨h.trimmed, h.spaced, h.ended, h.distinct⟩⟩

/-! ## Trimming -/

theorem trimEnd_append (a b : List Char) :
    trimEnd (a ++ b) = if trimEnd b = [] then trimEnd a else a ++ trimEnd b := by
  unfold trimEnd
  rw [List.reverse_append, List.dropWhile_append]
  by_cases hb : (b.reverse.dropWhile isWhitespace).isEmpty = true
  · rw [if_pos hb, List.isEmpty_iff.mp hb, List.reverse_nil, if_pos rfl]
  · have hne : (b.reverse.dropWhile isWhitespace).reverse ≠ [] := by
      rw [ne_eq, List.reverse_eq_nil_iff]
      exact fun h => hb (List.isEmpty_iff.mpr h)
    rw [if_neg hb, if_neg hne, List.reverse_append, List.reverse_reverse]

theorem trimEnd_length_le (text : List Char) : (trimEnd text).length ≤ text.length := by
  unfold trimEnd
  have h := (List.dropWhile_sublist (l := text.reverse) isWhitespace).length_le
  simpa using h

theorem trimEnd_eq_nil_iff {text : List Char} :
    trimEnd text = [] ↔ ∀ c ∈ text, isWhitespace c = true := by
  unfold trimEnd
  rw [List.reverse_eq_nil_iff, List.dropWhile_eq_nil_iff]
  simp

theorem trimEnd_trimEnd (text : List Char) : trimEnd (trimEnd text) = trimEnd text := by
  unfold trimEnd
  rw [List.reverse_reverse, List.dropWhile_idempotent]

/-- A visible character keeps what stands in front of it. -/
theorem trimEnd_visible {c : Char} (h : isWhitespace c = false) (a b : List Char) :
    trimEnd (a ++ c :: b) = a ++ c :: trimEnd b := by
  have hone : trimEnd [c] = [c] := by simp [trimEnd, h]
  have hhead : trimEnd (c :: b) = c :: trimEnd b := by
    rw [← List.singleton_append, trimEnd_append]
    split_ifs with hb
    · rw [hb, hone]
    · rfl
  rw [trimEnd_append, hhead, if_neg (List.cons_ne_nil c _)]

theorem trimStart_visible {c : Char} (h : isWhitespace c = false) (a b : List Char) :
    trimStart (a ++ c :: b) = trimStart a ++ c :: b := by
  unfold trimStart
  rw [List.dropWhile_append]
  split_ifs with ha
  · rw [List.isEmpty_iff.mp ha, List.dropWhile_cons_of_neg (by simp [h])]
    rfl
  · rfl

/-- A text that is not all white space, cut at its first visible character. -/
theorem exists_visible {text : List Char} (h : trimEnd text ≠ []) :
    ∃ front c rest, text = front ++ c :: rest ∧ (∀ d ∈ front, isWhitespace d = true) ∧
      isWhitespace c = false := by
  induction text with
  | nil => exact absurd rfl h
  | cons d text ih =>
      cases hd : isWhitespace d with
      | false => exact ⟨[], d, text, rfl, by simp, hd⟩
      | true =>
          have hrest : trimEnd text ≠ [] := by
            intro hnil
            apply h
            rw [trimEnd_eq_nil_iff] at hnil ⊢
            exact List.forall_mem_cons.mpr ⟨hd, hnil⟩
          obtain ⟨front, c, rest, rfl, hfront, hc⟩ := ih hrest
          exact ⟨d :: front, c, rest, rfl, List.forall_mem_cons.mpr ⟨hd, hfront⟩, hc⟩

theorem trimStart_trimEnd (text : List Char) : trimStart (trimEnd text) = trim text := by
  unfold trim
  by_cases h : trimEnd text = []
  · have hspace := trimEnd_eq_nil_iff.mp h
    have hstart : trimStart text = [] := List.dropWhile_eq_nil_iff.mpr hspace
    rw [h, hstart]
    rfl
  · obtain ⟨front, c, rest, rfl, _, hc⟩ := exists_visible h
    rw [trimEnd_visible hc, trimStart_visible hc, trimStart_visible hc, trimEnd_visible hc]

theorem trim_trimEnd (text : List Char) : trim (trimEnd text) = trim text := by
  rw [← trimStart_trimEnd, trimEnd_trimEnd, trimStart_trimEnd]

theorem trim_trim (text : List Char) : trim (trim text) = trim text := by
  have hstart : trimStart (trimStart text) = trimStart text :=
    List.dropWhile_idempotent isWhitespace text
  calc trim (trim text) = trim (trimStart text) := trim_trimEnd (trimStart text)
    _ = trim text := congrArg trimEnd hstart

theorem trim_within (text : List Char) : trim text <:+: text := by
  obtain ⟨front, back, hsplit, _, _⟩ := trim_split text
  exact ⟨front, back, hsplit.symm⟩

theorem trim_of_visible {text : List Char} (h : ∀ c ∈ text, isWhitespace c = false) :
    trim text = text := by
  obtain ⟨front, back, hsplit, hfront, hback⟩ := trim_split text
  have hnil : ∀ part : List Char, (∀ c ∈ part, isWhitespace c = true) → (∀ c ∈ part, c ∈ text) →
      part = [] := by
    intro part hspace hmem
    rw [List.eq_nil_iff_forall_not_mem]
    intro c hc
    exact absurd (hspace c hc) (by simp [h c (hmem c hc)])
  have hfrontNil := hnil front hfront fun c hc => by
    rw [hsplit]
    simp [hc]
  have hbackNil := hnil back hback fun c hc => by
    rw [hsplit]
    simp [hc]
  rw [hfrontNil, hbackNil, List.nil_append, List.append_nil] at hsplit
  exact hsplit.symm

theorem trim_space {c : Char} (h : isWhitespace c = true) (text : List Char) :
    trim (c :: text) = trim text := by
  have hstart : trimStart (c :: text) = trimStart text := List.dropWhile_cons_of_pos h
  exact congrArg trimEnd hstart

theorem trimEnd_begins (text : List Char) : trimEnd text <+: text := by
  rw [trimEnd, ← List.reverse_suffix, List.reverse_reverse]
  exact List.dropWhile_suffix isWhitespace

theorem trim_isEmpty_iff {line : List Char} : (trim line).isEmpty = true ↔ trimEnd line = [] := by
  unfold trim
  rw [List.isEmpty_iff, trimEnd_eq_nil_iff, trimEnd_eq_nil_iff]
  constructor
  · intro h c hc
    rw [← List.takeWhile_append_dropWhile (p := isWhitespace) (l := line)] at hc
    rcases List.mem_append.mp hc with hc | hc
    · exact List.mem_takeWhile_imp hc
    · exact h c hc
  · intro h c hc
    exact h c ((List.dropWhile_sublist _).mem hc)

theorem trimEnd_stripCarriageReturn (line : List Char) :
    trimEnd (stripCarriageReturn line) = trimEnd line := by
  unfold stripCarriageReturn
  split
  next h =>
    have hline := List.dropLast_append_getLast? '\r' h
    conv_rhs => rw [← hline]
    rw [trimEnd_append, if_pos (by decide)]
  next => rfl

/-- A text that ends in something visible is still there after a trim of the end. -/
theorem infix_trimEnd {a p b : List Char} (hp : trimEnd p = p) (hne : p ≠ []) :
    p <:+: trimEnd (a ++ p ++ b) := by
  rw [trimEnd_append]
  split_ifs with hb
  · rw [trimEnd_append, if_neg (by rwa [hp]), hp]
    exact ⟨a, [], by simp⟩
  · exact ⟨a, trimEnd b, rfl⟩

/-! ## Lines -/

theorem not_mem_splitOn {text line : List Char} (h : line ∈ text.splitOn '\n') : '\n' ∉ line := by
  unfold List.splitOn at h
  induction text generalizing line with
  | nil =>
      rw [List.splitOnP_nil, List.mem_singleton] at h
      simp [h]
  | cons c text ih =>
      rw [List.splitOnP_cons_eq_if_modifyHead] at h
      split_ifs at h with hc
      · rcases List.mem_cons.mp h with rfl | h
        · simp
        · exact ih h
      · cases hparts : text.splitOnP (· == '\n') with
        | nil => exact absurd hparts (List.splitOnP_ne_nil _ _)
        | cons first parts =>
            rw [hparts] at h ih
            rw [List.modifyHead_cons] at h
            rcases List.mem_cons.mp h with rfl | h
            · rw [List.mem_cons]
              rintro (rfl | hmem)
              · exact hc (by decide)
              · exact ih (List.mem_cons_self ..) hmem
            · exact ih (List.mem_cons_of_mem _ h)

/-- Every part with something visible is a line, up to trailing blanks. -/
theorem exists_line {text part : List Char} (h : part ∈ text.splitOn '\n')
    (hvisible : trimEnd part ≠ []) : ∃ line ∈ lines text, trimEnd line = trimEnd part := by
  have hparts := List.dropLast_append_getLast (List.splitOn_ne_nil '\n' text)
  rw [← hparts] at h
  unfold lines
  dsimp only
  rw [List.getLast?_eq_some_getLast (List.splitOn_ne_nil '\n' text), Option.getD_some]
  rcases List.mem_append.mp h with h | h
  · exact ⟨stripCarriageReturn part, List.mem_append_left _ (List.mem_map_of_mem h),
      trimEnd_stripCarriageReturn part⟩
  · rw [List.mem_singleton.mp h] at hvisible ⊢
    refine ⟨_, List.mem_append_right _ ?_, rfl⟩
    rw [if_neg]
    · exact List.mem_singleton.mpr rfl
    · intro hempty
      rw [List.isEmpty_iff.mp hempty] at hvisible
      exact hvisible rfl

theorem not_mem_lines {text line : List Char} (h : line ∈ lines text) : '\n' ∉ line := by
  unfold lines at h
  dsimp only at h
  rcases List.mem_append.mp h with h | h
  · obtain ⟨part, hpart, rfl⟩ := List.mem_map.mp h
    have hnone := not_mem_splitOn (List.mem_of_mem_dropLast hpart)
    unfold stripCarriageReturn
    split
    · exact fun hmem => hnone (List.mem_of_mem_dropLast hmem)
    · exact hnone
  · split_ifs at h
    · cases h
    · rw [List.mem_singleton.mp h, List.getLast?_eq_some_getLast (List.splitOn_ne_nil '\n' text),
        Option.getD_some]
      exact not_mem_splitOn (List.getLast_mem _)

/-! ## What the clean-up keeps -/

theorem infix_normalizeLoop {ls : List (List Char)} {line : List Char} (h : line ∈ ls)
    (hvisible : trimEnd line ≠ []) (blankCount : Nat) :
    trimEnd line <:+: normalizeLoop blankCount ls := by
  induction ls generalizing blankCount with
  | nil => cases h
  | cons first ls ih =>
      unfold normalizeLoop
      rcases List.mem_cons.mp h with rfl | h
      · rw [if_neg (fun hblank => hvisible (trim_isEmpty_iff.mp hblank))]
        exact ⟨[], '\n' :: normalizeLoop 0 ls, by simp⟩
      · split_ifs
        · obtain ⟨a, b, hab⟩ := ih h (blankCount + 1)
          exact ⟨['\n'] ++ a, b, by simp [← hab]⟩
        · exact ih h (blankCount + 1)
        · obtain ⟨a, b, hab⟩ := ih h 0
          exact ⟨trimEnd first ++ '\n' :: a, b, by simp [← hab]⟩

/-- Every visible line is in the normalized text. -/
theorem infix_normalizeWhitespace {text line : List Char} (h : line ∈ lines text)
    (hvisible : trimEnd line ≠ []) : trimEnd line <:+: normalizeWhitespace text := by
  obtain ⟨a, b, hab⟩ := infix_normalizeLoop h hvisible 0
  unfold normalizeWhitespace
  rw [← hab]
  exact infix_trimEnd (trimEnd_trimEnd line) hvisible

/-- A line that a block leaves out is in the block's first occurrence. -/
theorem mem_dedupLoop {ls : List (List Char)} {line : List Char} (h : line ∈ ls)
    (seen : List (List (List Char))) :
    line ∈ dedupLoop seen ls ∨ ∃ block ∈ seen, line ∈ block := by
  fun_induction dedupLoop seen ls with
  | case1 seen a b c d rest hseen ih =>
      have hsplit : line ∈ [a, b, c, d] ++ rest := h
      rcases List.mem_append.mp hsplit with hblock | hrest
      · exact Or.inr ⟨_, hseen, hblock⟩
      · exact (ih hrest).imp (List.mem_cons_of_mem _) id
  | case2 seen a b c d rest hnew ih =>
      have hsplit : line ∈ [a, b, c, d] ++ rest := h
      have hkept : ∀ l, l ∈ [a, b, c, d] ++ dedupLoop ([a, b, c, d] :: seen) rest ↔
          l ∈ a :: b :: c :: d :: dedupLoop ([a, b, c, d] :: seen) rest := fun l => Iff.rfl
      rcases List.mem_append.mp hsplit with hblock | hrest
      · exact Or.inl ((hkept line).mp (List.mem_append_left _ hblock))
      · rcases ih hrest with hmem | ⟨block, hblock, hmem⟩
        · exact Or.inl ((hkept line).mp (List.mem_append_right _ hmem))
        · rcases List.mem_cons.mp hblock with rfl | hblock
          · exact Or.inl ((hkept line).mp (List.mem_append_left _ hmem))
          · exact Or.inr ⟨block, hblock, hmem⟩
  | case3 seen rest hshort => exact Or.inl h

theorem not_mem_dedupLoop {ls : List (List Char)} (h : ∀ line ∈ ls, '\n' ∉ line)
    (seen : List (List (List Char))) : ∀ line ∈ dedupLoop seen ls, '\n' ∉ line := by
  fun_induction dedupLoop seen ls with
  | case1 seen a b c d rest hseen ih =>
      intro line hline
      rcases List.mem_cons.mp hline with rfl | hline
      · decide
      · exact ih (fun l hl => h l (by simp [hl])) line hline
  | case2 seen a b c d rest hnew ih =>
      intro line hline
      have hsplit : line ∈ [a, b, c, d] ++ dedupLoop ([a, b, c, d] :: seen) rest := hline
      rcases List.mem_append.mp hsplit with hblock | hrest
      · exact h line (List.mem_append_left rest hblock)
      · exact ih (fun l hl => h l (by simp [hl])) line hrest
  | case3 seen rest hshort => exact h

/-- Every visible line of a text is in what `dedup_blocks` makes of it. -/
theorem infix_dedupBlocks {text line : List Char} (h : line ∈ lines text)
    (hvisible : trimEnd line ≠ []) : trimEnd line <:+: dedupBlocks text := by
  unfold dedupBlocks
  split_ifs with hshort
  · exact infix_normalizeWhitespace h hvisible
  · have hmem : line ∈ dedupLoop [] (lines text) := by
      rcases mem_dedupLoop h [] with hmem | ⟨_, hnone, _⟩
      · exact hmem
      · cases hnone
    have hparts : (joinLines (dedupLoop [] (lines text))).splitOn '\n' =
        dedupLoop [] (lines text) :=
      List.splitOn_intercalate '\n' (not_mem_dedupLoop (fun l hl => not_mem_lines hl) [])
        (List.ne_nil_of_mem hmem)
    obtain ⟨kept, hkept, hsame⟩ := exists_line (by rwa [hparts]) hvisible
    rw [← hsame] at hvisible ⊢
    exact infix_normalizeWhitespace hkept hvisible

/-! ## Tidy texts -/

/-- The lines with a line break behind each. -/
def terminated (ls : List (List Char)) : List Char := ls.flatMap fun line => line ++ ['\n']

theorem joinLines_terminated {ls : List (List Char)} (h : ls ≠ []) :
    joinLines ls ++ ['\n'] = terminated ls := by
  induction ls with
  | nil => exact absurd rfl h
  | cons line ls ih =>
      unfold joinLines terminated at ih ⊢
      cases ls with
      | nil => simp
      | cons next ls =>
          have hrest := ih (List.cons_ne_nil _ _)
          rw [List.flatMap_cons, ← hrest, List.intercalate_cons_cons]
          simp

theorem text_terminated (text : List Char) : text ++ ['\n'] = terminated (text.splitOn '\n') := by
  rw [← joinLines_terminated (List.splitOn_ne_nil '\n' text)]
  unfold joinLines
  rw [List.intercalate_splitOn]

/-- A text that does not end in a blank has its last line behind the last line break. -/
theorem getLast_splitOn_ne_nil {text : List Char} (hended : trimEnd text = text)
    (hne : text ≠ []) : (text.splitOn '\n').getLast (List.splitOn_ne_nil '\n' text) ≠ [] := by
  intro hlast
  have hparts := List.dropLast_append_getLast (List.splitOn_ne_nil '\n' text)
  have htext := text_terminated text
  rw [← hparts, hlast] at htext
  have htext' : text = terminated (text.splitOn '\n').dropLast := by
    unfold terminated at htext ⊢
    rw [List.flatMap_append, List.flatMap_singleton] at htext
    exact List.append_cancel_right htext
  rcases List.eq_nil_or_concat (text.splitOn '\n').dropLast with hinit | ⟨init, line, hinit⟩
  · rw [hinit] at htext'
    exact hne htext'
  · rw [hinit] at htext'
    unfold terminated at htext'
    rw [List.concat_eq_append, List.flatMap_append, List.flatMap_singleton, ← List.append_assoc]
      at htext'
    have htrimmed : trimEnd text = trimEnd (List.flatMap (fun line => line ++ ['\n']) init ++ line) := by
      conv_lhs => rw [htext']
      rw [trimEnd_append, if_pos (by decide)]
    have hshort := trimEnd_length_le (List.flatMap (fun line => line ++ ['\n']) init ++ line)
    rw [← htrimmed, hended] at hshort
    have hlength := congrArg List.length htext'
    rw [List.length_append, List.length_singleton] at hlength
    omega

theorem stripCarriageReturn_trimmed {line : List Char} (h : trimEnd line = line) :
    stripCarriageReturn line = line := by
  unfold stripCarriageReturn
  split
  next hlast =>
    have hline := List.dropLast_append_getLast? '\r' hlast
    have hshort := trimEnd_length_le line.dropLast
    have htrimmed : trimEnd line = trimEnd line.dropLast := by
      conv_lhs => rw [← hline]
      rw [trimEnd_append, if_pos (by decide)]
    have hlength := congrArg List.length hline
    rw [List.length_append, List.length_singleton] at hlength
    rw [← htrimmed, h] at hshort
    omega
  next => rfl

theorem Tidy.lines_eq {text : List Char} (h : Tidy text) (hne : text ≠ []) :
    lines text = text.splitOn '\n' := by
  have hparts := List.dropLast_append_getLast (List.splitOn_ne_nil '\n' text)
  have hlast := getLast_splitOn_ne_nil h.ended hne
  unfold lines
  dsimp only
  rw [List.getLast?_eq_some_getLast (List.splitOn_ne_nil '\n' text), Option.getD_some,
    if_neg (fun hempty => hlast (List.isEmpty_iff.mp hempty))]
  conv_rhs => rw [← hparts]
  congr 1
  have hstrip : ∀ line ∈ (text.splitOn '\n').dropLast, stripCarriageReturn line = id line :=
    fun line hline => stripCarriageReturn_trimmed (h.trimmed line (List.mem_of_mem_dropLast hline))
  rw [List.map_congr_left hstrip, List.map_id]

/-- Single blank lines are kept. -/
theorem normalizeLoop_spaced {ls : List (List Char)} (trimmed : ∀ line ∈ ls, trimEnd line = line)
    (spaced : ls.IsChain fun a b => a ≠ [] ∨ b ≠ []) {blankCount : Nat}
    (hstart : blankCount = 0 ∨ blankCount = 1 ∧ ls.head? ≠ some []) :
    normalizeLoop blankCount ls = terminated ls := by
  induction ls generalizing blankCount with
  | nil => rfl
  | cons line ls ih =>
      have htrimmed := trimmed line (List.mem_cons_self ..)
      have hrest : ∀ l ∈ ls, trimEnd l = l := fun l hl => trimmed l (List.mem_cons_of_mem _ hl)
      have hspaced := List.IsChain.tail spaced
      have hcons : terminated (line :: ls) = line ++ '\n' :: terminated ls := by
        unfold terminated
        rw [List.flatMap_cons, List.append_assoc]
        rfl
      unfold normalizeLoop
      rw [hcons]
      by_cases hblank : line = []
      · have hzero : blankCount = 0 := by
          rcases hstart with hzero | ⟨_, hhead⟩
          · exact hzero
          · rw [hblank] at hhead
            exact absurd rfl hhead
        rw [if_pos (trim_isEmpty_iff.mpr (by rw [htrimmed, hblank])), hzero, if_pos (le_refl 1),
          hblank, ih hrest hspaced (Or.inr ⟨rfl, ?_⟩)]
        · rfl
        · cases ls with
          | nil => simp
          | cons next ls =>
              have hpair := (List.isChain_cons_cons.mp spaced).1
              simpa [hblank] using hpair
      · rw [if_neg (fun hempty => hblank (by rw [← htrimmed]; exact trim_isEmpty_iff.mp hempty)),
          htrimmed, ih hrest hspaced (Or.inl rfl)]

theorem dedupLoop_distinct {ls : List (List Char)} {seen : List (List (List Char))}
    (distinct : (fourLineBlocks ls).Nodup) (fresh : ∀ block ∈ fourLineBlocks ls, block ∉ seen) :
    dedupLoop seen ls = ls := by
  fun_induction dedupLoop seen ls with
  | case1 seen a b c d rest hseen ih =>
      exact absurd hseen (fresh _ (List.mem_cons_self ..))
  | case2 seen a b c d rest hnew ih =>
      obtain ⟨hfirst, hrest⟩ := List.nodup_cons.mp distinct
      rw [ih hrest fun block hblock => ?_]
      intro hmem
      rcases List.mem_cons.mp hmem with rfl | hmem
      · exact hfirst hblock
      · exact fresh block (List.mem_cons_of_mem _ hblock) hmem
  | case3 seen rest hshort => rfl

theorem Tidy.normalizeWhitespace_eq {text : List Char} (h : Tidy text) (hne : text ≠ []) :
    normalizeWhitespace text = text := by
  unfold normalizeWhitespace
  rw [h.lines_eq hne, normalizeLoop_spaced h.trimmed h.spaced (Or.inl rfl), ← text_terminated,
    trimEnd_append, if_pos (by decide), h.ended]

/-- There is nothing to clean up in a tidy text. -/
theorem Tidy.dedupBlocks_eq {text : List Char} (h : Tidy text) (hne : text ≠ []) :
    dedupBlocks text = text := by
  unfold dedupBlocks
  split_ifs
  · exact h.normalizeWhitespace_eq hne
  · rw [h.lines_eq hne, dedupLoop_distinct h.distinct (by simp)]
    unfold joinLines
    rw [List.intercalate_splitOn]
    exact h.normalizeWhitespace_eq hne

end ControlPlane.Source.Text
